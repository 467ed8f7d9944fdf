import Mathlib.Tactic
import RecordSchema.Number.Rounding

/-!
# Doubles by their places

A double that is a number is given by its place on the number line, up to the sign of a zero.  So
`dropZeroSign` sends every number to the double of its place, and the smaller and the larger of
two numbers become the minimum and the maximum of two integers.

The rounding of integers is monotone: `placeOfInt_mono` says that a larger integer never rounds to
an earlier place.  Hence it makes no difference whether bounds are widened before or after they
are rounded.
-/

namespace RecordSchema

/-! ### Rounding a quotient -/

lemma roundHalfEven_le {num den bound : ℕ} (h : num < bound * den) :
    roundHalfEven num den ≤ bound := by
  have hlt : num / den < bound := Nat.div_lt_of_lt_mul (by rwa [Nat.mul_comm])
  simp only [roundHalfEven]
  split <;> omega

lemma le_roundHalfEven {num den bound : ℕ} (hden : 0 < den) (h : bound * den ≤ num) :
    bound ≤ roundHalfEven num den := by
  have hle : bound ≤ num / den := (Nat.le_div_iff_mul_le hden).mpr h
  simp only [roundHalfEven]
  split <;> omega

/-- A larger quotient of the same denominator never rounds to a smaller number. -/
lemma roundHalfEven_mono {num num' : ℕ} (den : ℕ) (h : num ≤ num') :
    roundHalfEven num den ≤ roundHalfEven num' den := by
  have hquotient : num / den ≤ num' / den := Nat.div_le_div_right h
  have hnum := Nat.div_add_mod num den
  have hnum' := Nat.div_add_mod num' den
  rcases Nat.lt_or_eq_of_le hquotient with hlt | heq
  · simp only [roundHalfEven]
    split <;> split <;> omega
  · -- the quotients agree, so the larger numerator has the larger rest
    have hrest : num % den ≤ num' % den := by rw [heq] at hnum; omega
    simp only [roundHalfEven, heq]
    split <;> split <;> omega

namespace Double

/-- A larger numerator never rounds to a smaller magnitude. -/
theorem magnitudeOfRatio_mono {num num' den : ℕ} (hden : 0 < den) (h : num ≤ num') :
    magnitudeOfRatio num den ≤ magnitudeOfRatio num' den := by
  unfold magnitudeOfRatio
  have hscaled : num * unitsInOne ≤ num' * unitsInOne := Nat.mul_le_mul_right _ h
  generalize num * unitsInOne = scaled at *
  generalize num' * unitsInOne = scaled' at *
  have hquotient : scaled / den ≤ scaled' / den := Nat.div_le_div_right hscaled
  have hlog : (scaled / den).log2 ≤ (scaled' / den).log2 := by
    rw [Nat.log2_eq_log_two, Nat.log2_eq_log_two]
    exact Nat.log_mono_right hquotient
  refine min_le_min_left _ ?_
  simp only [show ∀ n, Nat.pow 2 n = 2 ^ n from fun _ => rfl]
  rcases Nat.lt_or_eq_of_le (Nat.sub_le_sub_right hlog 52) with hshift | hshift
  · -- the smaller one stays below the first double of the binade in which the larger one lies
    have hlow : roundHalfEven scaled (den * 2 ^ ((scaled / den).log2 - 52)) ≤ 2 ^ 53 := by
      apply roundHalfEven_le
      have hlt : scaled / den < 2 ^ (53 + ((scaled / den).log2 - 52)) :=
        lt_of_lt_of_le Nat.lt_log2_self (Nat.pow_le_pow_right (by omega) (by omega))
      calc scaled < 2 ^ (53 + ((scaled / den).log2 - 52)) * den :=
            (Nat.div_lt_iff_lt_mul hden).mp hlt
        _ = 2 ^ 53 * (den * 2 ^ ((scaled / den).log2 - 52)) := by rw [pow_add]; ring
    have hhigh : 2 ^ 52 ≤ roundHalfEven scaled' (den * 2 ^ ((scaled' / den).log2 - 52)) := by
      apply le_roundHalfEven (by positivity)
      have hne : scaled' / den ≠ 0 := by
        rintro hzero
        rw [hzero] at hshift
        simp at hshift
      calc 2 ^ 52 * (den * 2 ^ ((scaled' / den).log2 - 52))
          = 2 ^ (52 + ((scaled' / den).log2 - 52)) * den := by rw [pow_add]; ring
        _ = 2 ^ (scaled' / den).log2 * den := by congr 2; omega
        _ ≤ scaled' := (Nat.le_div_iff_mul_le hden).mp (Nat.log2_self_le hne)
    simp only [binade] at *
    omega
  · rw [hshift]
    exact Nat.add_le_add_left (roundHalfEven_mono _ hscaled) _

lemma magnitudeOfRatio_one_pos {n : ℕ} (h : 0 < n) : 0 < magnitudeOfRatio n 1 :=
  lt_of_lt_of_le (by decide +kernel : 0 < magnitudeOfRatio 1 1)
    (magnitudeOfRatio_mono Nat.one_pos h)

/-! ### The double of a place -/

/-- The double at a place; at zero, the one without a sign. -/
def ofPlace (place : ℤ) : Double := .number (decide (place < 0)) place.natAbs

/-- The same number, a zero without its sign. -/
def dropZeroSign : Double → Double
  | .number _ 0 => .number false 0
  | x => x

/-- Both are numbers, and the first does not exceed the second. -/
def AtMost (a b : Double) : Prop :=
  ∃ x y, a.place? = some x ∧ b.place? = some y ∧ x ≤ y

@[simp] lemma place?_ofPlace (place : ℤ) : (ofPlace place).place? = some place := by
  by_cases h : place < 0
  · simp only [ofPlace, h, decide_true, place?, Option.some.injEq]
    omega
  · simp only [ofPlace, h, decide_false, place?, Option.some.injEq]
    omega

lemma place?_number (negative : Bool) (magnitude : ℕ) :
    (number negative magnitude).place? =
      some (if negative then -(magnitude : ℤ) else magnitude) := by
  cases negative <;> rfl

/-- A double other than the negative zero is the one of its place. -/
lemma number_eq_ofPlace {negative : Bool} {magnitude : ℕ} (h : negative = true → 0 < magnitude) :
    number negative magnitude = ofPlace (if negative then -(magnitude : ℤ) else magnitude) := by
  cases negative with
  | false => simp [ofPlace]
  | true => simp [ofPlace, h rfl]

lemma dropZeroSign_of_place? {x : Double} {place : ℤ} (h : x.place? = some place) :
    x.dropZeroSign = ofPlace place := by
  cases x with
  | nan => simp [place?] at h
  | number negative magnitude =>
    rw [place?_number, Option.some.injEq] at h
    subst h
    cases magnitude with
    | zero => simp [dropZeroSign, ofPlace]
    | succ magnitude => exact number_eq_ofPlace fun _ => Nat.succ_pos magnitude

@[simp] lemma place?_dropZeroSign (x : Double) : x.dropZeroSign.place? = x.place? := by
  cases hx : x.place? with
  | none =>
    cases x with
    | nan => rfl
    | number negative magnitude => simp [place?_number] at hx
  | some place => rw [dropZeroSign_of_place? hx, place?_ofPlace]

@[simp] lemma dropZeroSign_ofPlace (place : ℤ) : (ofPlace place).dropZeroSign = ofPlace place :=
  dropZeroSign_of_place? (place?_ofPlace place)

@[simp] lemma dropZeroSign_dropZeroSign (x : Double) :
    x.dropZeroSign.dropZeroSign = x.dropZeroSign := by
  cases x with
  | nan => rfl
  | number negative magnitude => cases magnitude <;> rfl

/-! ### Comparing and widening -/

lemma lt_of_place? {a b : Double} {x y : ℤ} (ha : a.place? = some x) (hb : b.place? = some y) :
    a.lt b = decide (x < y) := by
  simp only [lt, ha, hb]

lemma place?_min {a b : Double} {x y : ℤ} (ha : a.place? = some x) (hb : b.place? = some y) :
    (a.min b).place? = some (Min.min x y) := by
  unfold min
  rw [lt_of_place? hb ha]
  by_cases h : y < x
  · rw [if_pos (by simpa using h), hb, min_eq_right h.le]
  · rw [if_neg (by simpa using h), ha, min_eq_left (not_lt.mp h)]

lemma place?_max {a b : Double} {x y : ℤ} (ha : a.place? = some x) (hb : b.place? = some y) :
    (a.max b).place? = some (Max.max x y) := by
  unfold max
  rw [lt_of_place? ha hb]
  by_cases h : x < y
  · rw [if_pos (by simpa using h), hb, max_eq_right h.le]
  · rw [if_neg (by simpa using h), ha, max_eq_left (not_lt.mp h)]

@[simp] lemma lt_dropZeroSign (a b : Double) : a.dropZeroSign.lt b.dropZeroSign = a.lt b := by
  simp only [lt, place?_dropZeroSign]

@[simp] lemma dropZeroSign_min (a b : Double) :
    (a.min b).dropZeroSign = a.dropZeroSign.min b.dropZeroSign := by
  simp only [min, lt_dropZeroSign]
  split <;> rfl

@[simp] lemma dropZeroSign_max (a b : Double) :
    (a.max b).dropZeroSign = a.dropZeroSign.max b.dropZeroSign := by
  simp only [max, lt_dropZeroSign]
  split <;> rfl

@[simp] lemma min_ofPlace (x y : ℤ) : (ofPlace x).min (ofPlace y) = ofPlace (Min.min x y) := by
  have hplace := place?_min (place?_ofPlace x) (place?_ofPlace y)
  simpa using dropZeroSign_of_place? hplace

@[simp] lemma max_ofPlace (x y : ℤ) : (ofPlace x).max (ofPlace y) = ofPlace (Max.max x y) := by
  have hplace := place?_max (place?_ofPlace x) (place?_ofPlace y)
  simpa using dropZeroSign_of_place? hplace

@[simp] lemma abs_dropZeroSign (x : Double) : x.dropZeroSign.abs = x.abs := by
  cases x with
  | nan => rfl
  | number negative magnitude => cases magnitude <;> rfl

@[simp] lemma exceedsSingle_dropZeroSign (lo hi : Double) :
    exceedsSingle lo.dropZeroSign hi.dropZeroSign = exceedsSingle lo hi := by
  simp only [exceedsSingle, abs_dropZeroSign]

lemma eqv_of_dropZeroSign_eq {a b : Double} {x : ℤ} (ha : a.place? = some x)
    (h : a.dropZeroSign = b.dropZeroSign) : a.eqv b := by
  have hb : b.place? = some x := by rw [← place?_dropZeroSign, ← h, place?_dropZeroSign, ha]
  simp only [eqv, ha, hb, decide_true]

instance (a b : Double) : Decidable (a.AtMost b) :=
  match ha : a.place?, hb : b.place? with
  | some x, some y => decidable_of_iff (x ≤ y) (by simp [AtMost, ha, hb])
  | none, _ => .isFalse (by simp [AtMost, ha])
  | some _, none => .isFalse (by simp [AtMost, hb])

lemma AtMost.widen {a b c d : Double} (h : a.AtMost b) (h' : c.AtMost d) :
    (a.min c).AtMost (b.max d) := by
  obtain ⟨x, y, hx, hy, hxy⟩ := h
  obtain ⟨z, w, hz, hw, -⟩ := h'
  exact ⟨_, _, place?_min hx hz, place?_max hy hw,
    (min_le_left _ _).trans (hxy.trans (le_max_left _ _))⟩

lemma AtMost.refl {x : Double} (h : x ≠ .nan) : x.AtMost x := by
  cases x with
  | nan => exact absurd rfl h
  | number negative magnitude => exact ⟨_, _, place?_number _ _, place?_number _ _, le_rfl⟩

lemma AtMost.dropZeroSign {a b : Double} (h : a.AtMost b) :
    a.dropZeroSign.AtMost b.dropZeroSign := by
  obtain ⟨x, y, hx, hy, hxy⟩ := h
  exact ⟨x, y, by simpa using hx, by simpa using hy, hxy⟩

/-! ### Rounding integers -/

/-- The place of the double nearest to an integer. -/
def placeOfInt (n : ℤ) : ℤ :=
  if n < 0 then -magnitudeOfRatio n.natAbs 1 else magnitudeOfRatio n.natAbs 1

lemma ofInt_eq_ofPlace (n : ℤ) : ofInt n = ofPlace (placeOfInt n) := by
  have hpos : decide (n < 0) = true → 0 < magnitudeOfRatio n.natAbs 1 := fun h =>
    magnitudeOfRatio_one_pos (Int.natAbs_pos.mpr (of_decide_eq_true h).ne)
  rw [ofInt, number_eq_ofPlace hpos, placeOfInt]
  by_cases h : n < 0
  · rw [if_pos h, if_pos (decide_eq_true h)]
  · rw [if_neg h, if_neg (by simpa using h)]

/-- A larger integer never rounds to an earlier place. -/
theorem placeOfInt_mono : Monotone placeOfInt := by
  intro n m h
  unfold placeOfInt
  by_cases hn : n < 0 <;> by_cases hm : m < 0
  · have := magnitudeOfRatio_mono Nat.one_pos (show m.natAbs ≤ n.natAbs by omega)
    simp only [hn, hm, if_true]
    omega
  · simp only [hn, hm, if_true, if_false]
    omega
  · omega
  · have := magnitudeOfRatio_mono Nat.one_pos (show n.natAbs ≤ m.natAbs by omega)
    simp only [hn, hm, if_false]
    omega

lemma atMost_ofInt {n m : ℤ} (h : n ≤ m) : (ofInt n).AtMost (ofInt m) := by
  rw [ofInt_eq_ofPlace, ofInt_eq_ofPlace]
  exact ⟨_, _, place?_ofPlace _, place?_ofPlace _, placeOfInt_mono h⟩

end Double

end RecordSchema
