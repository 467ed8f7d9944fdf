import Mathlib.Tactic
import RecordSchema.Text.Utf8

/-!
# Reading back what has been written

Decoding takes back encoding: a character is read from its bytes, whatever stands after them, and so
a text is read from the bytes that it is written as.
-/

namespace RecordSchema.Utf8

lemma toNat_ofNat_of_lt {n : Nat} (h : n < 256) : (UInt8.ofNat n).toNat = n := by
  rw [UInt8.toNat_ofNat']
  exact Nat.mod_eq_of_lt h

/-- Six bits are carried by a byte that continues a character. -/
lemma isContinuation_ofNat (n : Nat) : isContinuation (UInt8.ofNat (n % 64 + 128)) = true := by
  unfold isContinuation
  rw [Bool.and_eq_true, decide_eq_true_iff, decide_eq_true_iff, UInt8.le_iff_toNat_le,
    UInt8.lt_iff_toNat_lt, toNat_ofNat_of_lt (by omega)]
  show 128 ≤ _ ∧ _ < 192
  omega

lemma payload_ofNat (n : Nat) : payload (UInt8.ofNat (n % 64 + 128)) = n % 64 := by
  rw [payload, toNat_ofNat_of_lt (by omega)]
  omega

/-! ### Characters of one to four bytes -/

section Characters

variable {found : List Char} {position : Nat} {a b c d : UInt8} {rest : List UInt8}

lemma decodeOnto_one (ha : a.toNat < 0x80) : decodeOnto found position (a :: rest) =
    decodeOnto (Char.ofNat a.toNat :: found) (position + 1) rest := by
  rw [decodeOnto.eq_def]
  exact if_pos (UInt8.lt_iff_toNat_lt.mpr ha)

/-- What stands before longer characters: no character of one byte, and no byte that none starts
with. -/
lemma not_short (ha : 0xc2 ≤ a.toNat ∧ a.toNat ≤ 0xf4) :
    ¬ a < 0x80 ∧ ¬ (decide (a < 0xc2) || decide (0xf4 < a)) = true := by
  rw [Bool.or_eq_true, decide_eq_true_iff, decide_eq_true_iff]
  simp only [UInt8.lt_iff_toNat_lt]
  show ¬ a.toNat < 128 ∧ ¬ (a.toNat < 194 ∨ 244 < a.toNat)
  omega

lemma decodeOnto_two (ha : 0xc2 ≤ a.toNat ∧ a.toNat < 0xe0) (hb : isContinuation b = true) :
    decodeOnto found position (a :: b :: rest) =
      decodeOnto (Char.ofNat (a.toNat % 0x20 * 0x40 + payload b) :: found) (position + 2) rest := by
  obtain ⟨hone, hstart⟩ := not_short (a := a) (by omega)
  have htwo : a < 0xe0 := UInt8.lt_iff_toNat_lt.mpr ha.2
  rw [decodeOnto.eq_def]
  simp only [hone, hstart, htwo, hb, if_true, if_false, Bool.false_eq_true]

lemma decodeOnto_three (ha : 0xe0 ≤ a.toNat ∧ a.toNat < 0xf0) (hb : suitsThree a b = true)
    (hc : isContinuation c = true) :
    decodeOnto found position (a :: b :: c :: rest) =
      decodeOnto
        (Char.ofNat ((a.toNat % 0x10 * 0x40 + payload b) * 0x40 + payload c) :: found)
        (position + 3) rest := by
  obtain ⟨hone, hstart⟩ := not_short (a := a) (by omega)
  have htwo : ¬ a < 0xe0 := fun h => absurd (UInt8.lt_iff_toNat_lt.mp h) (by simpa using ha.1)
  have hthree : a < 0xf0 := UInt8.lt_iff_toNat_lt.mpr ha.2
  rw [decodeOnto.eq_def]
  simp only [hone, hstart, htwo, hthree, hb, hc, if_true, if_false, Bool.false_eq_true,
    Bool.and_self]

lemma decodeOnto_four (ha : 0xf0 ≤ a.toNat ∧ a.toNat ≤ 0xf4) (hb : suitsFour a b = true)
    (hc : isContinuation c = true) (hd : isContinuation d = true) :
    decodeOnto found position (a :: b :: c :: d :: rest) =
      decodeOnto
        (Char.ofNat (((a.toNat % 8 * 0x40 + payload b) * 0x40 + payload c) * 0x40 + payload d)
          :: found) (position + 4) rest := by
  obtain ⟨hone, hstart⟩ := not_short (a := a) (by omega)
  have htwo : ¬ a < 0xe0 := fun h => absurd (UInt8.lt_iff_toNat_lt.mp h) (by simp; omega)
  have hthree : ¬ a < 0xf0 := fun h => absurd (UInt8.lt_iff_toNat_lt.mp h) (by simpa using ha.1)
  rw [decodeOnto.eq_def]
  simp only [hone, hstart, htwo, hthree, hb, hc, hd, if_true, if_false, Bool.false_eq_true,
    Bool.and_self]

/-- The second byte of three suits the first one: the number is neither small enough for two bytes
nor that of a surrogate. -/
lemma suitsThree_ofNat {v : Nat} (hlong : 0x7ff < v)
    (hvalid : v < 0xd800 ∨ 0xdfff < v ∧ v < 0x10000) :
    suitsThree (UInt8.ofNat (v / 4096 % 16 + 224)) (UInt8.ofNat (v / 64 % 64 + 128)) = true := by
  unfold suitsThree
  simp only [isContinuation_ofNat, Bool.true_and, Bool.and_eq_true, Bool.not_eq_true',
    Bool.and_eq_false_iff, decide_eq_false_iff_not, ← UInt8.toNat_inj, UInt8.lt_iff_toNat_lt,
    UInt8.le_iff_toNat_le]
  rw [toNat_ofNat_of_lt (by omega), toNat_ofNat_of_lt (by omega)]
  show (¬ _ = 224 ∨ ¬ _ < 160) ∧ (¬ _ = 237 ∨ ¬ 160 ≤ _)
  omega

/-- The second byte of four suits the first one: the number is neither small enough for three bytes
nor too large. -/
lemma suitsFour_ofNat {v : Nat} (hlong : 0xffff < v) (hvalid : v < 0x110000) :
    suitsFour (UInt8.ofNat (v / 262144 % 8 + 240)) (UInt8.ofNat (v / 4096 % 64 + 128)) = true := by
  unfold suitsFour
  simp only [isContinuation_ofNat, Bool.true_and, Bool.and_eq_true, Bool.not_eq_true',
    Bool.and_eq_false_iff, decide_eq_false_iff_not, ← UInt8.toNat_inj, UInt8.lt_iff_toNat_lt,
    UInt8.le_iff_toNat_le]
  rw [toNat_ofNat_of_lt (by omega), toNat_ofNat_of_lt (by omega)]
  show (¬ _ = 240 ∨ ¬ _ < 144) ∧ (¬ _ = 244 ∨ ¬ 144 ≤ _)
  omega

end Characters

/-! ### Characters and texts -/

/-- A character is read from its bytes. -/
theorem decodeOnto_utf8EncodeChar (c : Char) (found : List Char) (position : Nat)
    (rest : List UInt8) : ∃ position', decodeOnto found position (String.utf8EncodeChar c ++ rest) =
      decodeOnto (c :: found) position' rest := by
  have hvalid : c.val.toNat < 0xd800 ∨ 0xdfff < c.val.toNat ∧ c.val.toNat < 0x110000 := c.valid
  have hchar : Char.ofNat c.val.toNat = c := Char.ofNat_toNat c
  unfold String.utf8EncodeChar
  dsimp only
  generalize c.val.toNat = v at hvalid hchar
  split_ifs with hone htwo hthree
  · refine ⟨position + 1, ?_⟩
    rw [List.singleton_append, decodeOnto_one (by rw [toNat_ofNat_of_lt] <;> omega),
      toNat_ofNat_of_lt (by omega), hchar]
  · refine ⟨position + 2, ?_⟩
    rw [List.cons_append, List.singleton_append, decodeOnto_two
      (by rw [toNat_ofNat_of_lt] <;> omega) (isContinuation_ofNat v), payload_ofNat,
      toNat_ofNat_of_lt (by omega),
      show (v / 64 % 32 + 192) % 0x20 * 0x40 + v % 64 = v by omega, hchar]
  · refine ⟨position + 3, ?_⟩
    rw [List.cons_append, List.cons_append, List.singleton_append, decodeOnto_three
      (by rw [toNat_ofNat_of_lt] <;> omega) (suitsThree_ofNat (by omega) (by omega))
      (isContinuation_ofNat v), payload_ofNat, payload_ofNat, toNat_ofNat_of_lt (by omega),
      show ((v / 4096 % 16 + 224) % 0x10 * 0x40 + v / 64 % 64) * 0x40 + v % 64 = v by omega, hchar]
  · refine ⟨position + 4, ?_⟩
    rw [List.cons_append, List.cons_append, List.cons_append, List.singleton_append,
      decodeOnto_four (by rw [toNat_ofNat_of_lt] <;> omega) (suitsFour_ofNat (by omega) (by omega))
      (isContinuation_ofNat _) (isContinuation_ofNat v), payload_ofNat, payload_ofNat,
      payload_ofNat, toNat_ofNat_of_lt (by omega),
      show (((v / 262144 % 8 + 240) % 8 * 0x40 + v / 4096 % 64) * 0x40 + v / 64 % 64) * 0x40 +
        v % 64 = v by omega, hchar]

lemma decodeOnto_flatMap (cs found : List Char) (position : Nat) :
    decodeOnto found position (cs.flatMap String.utf8EncodeChar) = .ok (found.reverse ++ cs) := by
  induction cs generalizing found position with
  | nil =>
    rw [List.flatMap_nil, decodeOnto.eq_def, List.append_nil]
  | cons c cs ih =>
    obtain ⟨position', h⟩ :=
      decodeOnto_utf8EncodeChar c found position (cs.flatMap String.utf8EncodeChar)
    rw [List.flatMap_cons, h, ih, List.reverse_cons, List.append_assoc, List.singleton_append]

/-- The bytes of an array from a place on, behind those that have been taken. -/
lemma loop_eq_append (bytes : ByteArray) (i : Nat) (taken : List UInt8) :
    ByteArray.toList.loop bytes i taken = taken.reverse ++ bytes.data.toList.drop i := by
  induction i, taken using ByteArray.toList.loop.induct bytes with
  | case1 i taken hlt ih =>
    have hlength : i < bytes.data.toList.length := hlt
    have hget : bytes.get! i = bytes.data.toList[i] := by
      rw [Array.getElem_toList]
      exact getElem!_pos bytes.data i hlt
    rw [ByteArray.toList.loop, if_pos hlt, ih, List.reverse_cons, List.append_assoc,
      List.singleton_append, hget, List.getElem_cons_drop]
  | case2 i taken hge =>
    have hlength : bytes.data.toList.length ≤ i := Nat.le_of_not_lt hge
    rw [ByteArray.toList.loop, if_neg hge, List.drop_eq_nil_of_le hlength, List.append_nil]

/-- The bytes of a text are those of its characters. -/
lemma ofString_eq (s : String) : ofString s = s.toList.flatMap String.utf8EncodeChar := by
  rw [ofString, String.toUTF8, ← String.utf8Encode_toList, ByteArray.toList, loop_eq_append,
    List.utf8Encode, List.toList_data_toByteArray]
  rfl

/-- A text is read from its bytes. -/
theorem decode_ofString (s : String) : decode (ofString s) = .ok s := by
  rw [decode, ofString_eq, decodeOnto_flatMap]
  show Except.ok (String.ofList s.toList) = _
  rw [String.ofList_toList]

end RecordSchema.Utf8
