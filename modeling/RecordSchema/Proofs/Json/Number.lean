import Mathlib.Tactic
import RecordSchema.Json.Numeral

/-!
# The form of numbers

A number has an optional minus sign, digits without a zero in front of others, and then may have a
point with further digits and a power of ten.  `Number` is such a form, `Number.text` puts it in
writing, and `Number.value?` is what it stands for.  Nothing here speaks of a reader.
-/

namespace RecordSchema.Json

/-! ### Digits -/

/-- An ASCII digit. -/
def IsDigit (b : UInt8) : Prop := 0x30 ≤ b ∧ b ≤ 0x39

instance (b : UInt8) : Decidable (IsDigit b) := inferInstanceAs (Decidable (_ ∧ _))

/-- The number that a digit stands for. -/
def digitValue (b : UInt8) : ℕ := b.toNat - 0x30

/-- The number that digits spell. -/
def naturalOf (digits : List UInt8) : ℕ := digits.foldl (fun n b => 10 * n + digitValue b) 0

/-- Digits, at least one. -/
structure IsDigits (bytes : List UInt8) : Prop where
  ne_nil : bytes ≠ []
  isDigit : ∀ b ∈ bytes, IsDigit b

/-- Digits as they may stand before a point: a zero stands alone. -/
structure IsWhole (bytes : List UInt8) : Prop extends IsDigits bytes where
  eq_of_zero : bytes.head? = some 0x30 → bytes = [0x30]

lemma digit?_eq_some_iff {b : UInt8} {d : ℕ} :
    Numeral.digit? b = some d ↔ IsDigit b ∧ d = digitValue b := by
  unfold Numeral.digit? IsDigit digitValue
  split
  · next h =>
    rw [Option.some.injEq]
    exact ⟨fun heq => ⟨h, heq.symm⟩, fun heq => heq.2.symm⟩
  · next h =>
    exact ⟨nofun, fun hdigit => absurd hdigit.1 h⟩

lemma digit?_of_isDigit {b : UInt8} (h : IsDigit b) : Numeral.digit? b = some (digitValue b) :=
  digit?_eq_some_iff.mpr ⟨h, rfl⟩

lemma digit?_eq_none_iff {b : UInt8} : Numeral.digit? b = none ↔ ¬ IsDigit b := by
  unfold Numeral.digit? IsDigit
  split
  · next h => simp [h]
  · next h => simp [h]

lemma digitValue_eq_zero_iff {b : UInt8} (h : IsDigit b) : digitValue b = 0 ↔ b = 0x30 := by
  have hlow := UInt8.le_iff_toNat_le.mp h.1
  rw [← UInt8.toNat_inj]
  unfold digitValue
  simp only [UInt8.reduceToNat] at *
  omega

lemma naturalOf_append_singleton (digits : List UInt8) (b : UInt8) :
    naturalOf (digits ++ [b]) = 10 * naturalOf digits + digitValue b := by
  rw [naturalOf, List.foldl_append]
  rfl

lemma IsDigits.append {bytes : List UInt8} (h : ∀ b ∈ bytes, IsDigit b) {b : UInt8}
    (hb : IsDigit b) : IsDigits (bytes ++ [b]) :=
  ⟨by simp, List.forall_mem_append.mpr ⟨h, List.forall_mem_singleton.mpr hb⟩⟩

lemma isDigits_singleton {b : UInt8} (h : IsDigit b) : IsDigits [b] :=
  ⟨by simp, List.forall_mem_singleton.mpr h⟩

/-! ### Forms -/

/-- A power of ten at the end of a number. -/
@[ext]
structure Power where
  /-- The letter `e` in either case. -/
  mark : UInt8
  sign? : Option UInt8
  digits : List UInt8
  mark_form : mark = 0x65 ∨ mark = 0x45
  sign_form : ∀ sign ∈ sign?, sign = 0x2b ∨ sign = 0x2d
  digits_form : IsDigits digits

/-- The power in writing. -/
def Power.text (power : Power) : List UInt8 := power.mark :: (power.sign?.toList ++ power.digits)

/-- The power as an integer. -/
def Power.value (power : Power) : ℤ :=
  if power.sign? = some 0x2d then -naturalOf power.digits else naturalOf power.digits

/-- A number. -/
@[ext]
structure Number where
  negative : Bool
  /-- The digits before the point. -/
  whole : List UInt8
  /-- The digits after the point; there is a point if there are any. -/
  fraction : List UInt8
  power? : Option Power
  whole_form : IsWhole whole
  fraction_form : ∀ b ∈ fraction, IsDigit b

/-- The sign in writing. -/
def signText (negative : Bool) : List UInt8 := if negative then [0x2d] else []

/-- Digits after a point, with the point. -/
def fractionText (fraction : List UInt8) : List UInt8 :=
  if fraction = [] then [] else 0x2e :: fraction

namespace Number

/-- The number in writing. -/
def text (number : Number) : List UInt8 :=
  signText number.negative ++ number.whole ++ fractionText number.fraction ++
    (number.power?.map Power.text).getD []

/-- The digits as one number. -/
def coefficient (number : Number) : ℕ := naturalOf (number.whole ++ number.fraction)

/-- The power of ten that the last digit stands for. -/
def exponent (number : Number) : ℤ :=
  (number.power?.map Power.value).getD 0 - number.fraction.length

/-- What a number stands for: an integer without a point and without a power of ten, otherwise a
decimal, if its powers of ten are within bounds. -/
def value? (number : Number) : Option Value :=
  if number.fraction = [] ∧ number.power? = none then
    some (.integer (if number.negative then -number.coefficient else number.coefficient))
  else if Decimal.adjusted number.coefficient number.exponent ≤ Numeral.maxPower ∧
      Numeral.minPower ≤ number.exponent then
    some (.decimal (.finite number.negative number.coefficient number.exponent))
  else none

end Number

/-- A longer number may go on with the byte after the bytes. -/
def Extends (bytes : List UInt8) (b : UInt8) : Prop :=
  (∃ number : Number, number.text = bytes) ∧ ∃ number : Number, bytes ++ [b] <+: number.text

/-! ### The bytes of a number -/

/-- A byte that numbers may hold. -/
def IsNumeric (b : UInt8) : Prop :=
  IsDigit b ∨ b ∈ ([0x2d, 0x2b, 0x2e, 0x65, 0x45] : List UInt8)

instance (b : UInt8) : Decidable (IsNumeric b) := inferInstanceAs (Decidable (_ ∨ _))

lemma Power.isNumeric_of_mem {power : Power} {b : UInt8} (h : b ∈ power.text) : IsNumeric b := by
  rcases List.mem_cons.mp h with rfl | h
  · rcases power.mark_form with hmark | hmark <;> simp [IsNumeric, hmark]
  rcases List.mem_append.mp h with h | h
  · rcases power.sign_form b (by simpa using h) with rfl | rfl <;> decide
  · exact Or.inl (power.digits_form.isDigit b h)

namespace Number

lemma isNumeric_of_mem {number : Number} {b : UInt8} (h : b ∈ number.text) : IsNumeric b := by
  simp only [text, List.mem_append] at h
  rcases h with ((h | h) | h) | h
  · cases hnegative : number.negative <;> simp_all [signText, IsNumeric]
  · exact Or.inl (number.whole_form.isDigit b h)
  · unfold fractionText at h
    split at h
    · cases h
    · rcases List.mem_cons.mp h with rfl | h
      · decide
      · exact Or.inl (number.fraction_form b h)
  · cases hpower : number.power? with
    | none =>
      rw [hpower] at h
      cases h
    | some power =>
      rw [hpower] at h
      exact Power.isNumeric_of_mem h

/-- A number starts with a minus sign or a digit. -/
lemma exists_text_eq (number : Number) :
    ∃ b rest, number.text = b :: rest ∧ (b = 0x2d ∨ IsDigit b) := by
  obtain ⟨b, rest, hwhole⟩ := List.exists_cons_of_ne_nil number.whole_form.ne_nil
  have hb : IsDigit b := number.whole_form.isDigit b (hwhole ▸ List.mem_cons_self)
  unfold text
  cases number.negative with
  | true => exact ⟨0x2d, _, rfl, Or.inl rfl⟩
  | false =>
    rw [hwhole]
    exact ⟨b, _, rfl, Or.inr hb⟩

end Number

/-- No number goes on with a byte that numbers do not hold. -/
lemma not_extends_of_not_isNumeric {b : UInt8} (h : ¬ IsNumeric b) (bytes : List UInt8) :
    ¬ Extends bytes b := by
  rintro ⟨-, number, hbegins⟩
  exact h (Number.isNumeric_of_mem (hbegins.subset (by simp)))

/-- What starts like no number is not gone on with. -/
lemma not_extends_of_head {first : UInt8} (h : ¬ IsNumeric first) (rest : List UInt8) (b : UInt8) :
    ¬ Extends (first :: rest) b := by
  rintro ⟨⟨number, htext⟩, -⟩
  exact h (Number.isNumeric_of_mem (htext ▸ List.mem_cons_self))

lemma not_extends_nil (b : UInt8) : ¬ Extends [] b := by
  rintro ⟨⟨number, htext⟩, -⟩
  obtain ⟨first, rest, heq, -⟩ := number.exists_text_eq
  rw [htext] at heq
  cases heq

/-! ### Forms that grow -/

namespace Number

/-- An integer of one digit. -/
def ofDigit (negative : Bool) {b : UInt8} (h : IsDigit b) : Number where
  negative
  whole := [b]
  fraction := []
  power? := none
  whole_form := ⟨isDigits_singleton h, fun hzero => by rw [Option.some.inj hzero]⟩
  fraction_form := by simp

/-- One more digit before the point. -/
def pushWhole (number : Number) (nonzero : number.whole.head? ≠ some 0x30) {b : UInt8}
    (h : IsDigit b) : Number where
  negative := number.negative
  whole := number.whole ++ [b]
  fraction := number.fraction
  power? := number.power?
  whole_form := by
    refine ⟨.append number.whole_form.isDigit h, fun hzero => absurd ?_ nonzero⟩
    rwa [List.head?_append_of_ne_nil _ number.whole_form.ne_nil] at hzero
  fraction_form := number.fraction_form

/-- One more digit after the point. -/
def pushFraction (number : Number) {b : UInt8} (h : IsDigit b) : Number where
  negative := number.negative
  whole := number.whole
  fraction := number.fraction ++ [b]
  power? := number.power?
  whole_form := number.whole_form
  fraction_form := (IsDigits.append number.fraction_form h).isDigit

/-- The number with a power of ten. -/
def withPower (number : Number) (power : Power) : Number := { number with power? := some power }

variable {number : Number} {b : UInt8}

lemma text_pushWhole (integral : number.fraction = []) (plain : number.power? = none)
    (nonzero : number.whole.head? ≠ some 0x30) (h : IsDigit b) :
    (number.pushWhole nonzero h).text = number.text ++ [b] := by
  simp [text, pushWhole, integral, plain, fractionText]

lemma text_pushFraction_of_integral (integral : number.fraction = []) (plain : number.power? = none)
    (h : IsDigit b) : (number.pushFraction h).text = number.text ++ [0x2e] ++ [b] := by
  simp [text, pushFraction, integral, plain, fractionText]

lemma text_pushFraction (fractional : number.fraction ≠ []) (plain : number.power? = none)
    (h : IsDigit b) : (number.pushFraction h).text = number.text ++ [b] := by
  simp [text, pushFraction, fractional, plain, fractionText]

lemma text_withPower (plain : number.power? = none) (power : Power) :
    (number.withPower power).text = number.text ++ power.text := by
  simp [text, withPower, plain]

lemma text_ofDigit (negative : Bool) (h : IsDigit b) :
    (ofDigit negative h).text = signText negative ++ [b] := by
  simp [text, ofDigit, fractionText]

lemma coefficient_pushFraction (h : IsDigit b) :
    (number.pushFraction h).coefficient = 10 * number.coefficient + digitValue b := by
  rw [coefficient, coefficient, ← naturalOf_append_singleton, List.append_assoc]
  rfl

lemma coefficient_pushWhole (integral : number.fraction = [])
    (nonzero : number.whole.head? ≠ some 0x30) (h : IsDigit b) :
    (number.pushWhole nonzero h).coefficient = 10 * number.coefficient + digitValue b := by
  rw [coefficient, coefficient, ← naturalOf_append_singleton]
  simp [pushWhole, integral]

end Number

/-- A power of one digit. -/
def Power.ofDigit (mark : UInt8) (mark_form : mark = 0x65 ∨ mark = 0x45) (sign? : Option UInt8)
    (sign_form : ∀ sign ∈ sign?, sign = 0x2b ∨ sign = 0x2d) {b : UInt8} (h : IsDigit b) : Power :=
  { mark, sign?, digits := [b], mark_form, sign_form, digits_form := isDigits_singleton h }

/-- One more digit of the power. -/
def Power.push (power : Power) {b : UInt8} (h : IsDigit b) : Power :=
  { power with
    digits := power.digits ++ [b]
    digits_form := .append power.digits_form.isDigit h }

lemma Power.text_push (power : Power) {b : UInt8} (h : IsDigit b) :
    (power.push h).text = power.text ++ [b] := by
  simp [text, push]

end RecordSchema.Json
