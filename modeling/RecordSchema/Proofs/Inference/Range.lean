import RecordSchema.Proofs.Inference.Observation

/-!
# Integers out of range

Classification refuses integers that do not fit 64 bits, however deep within a value they stand.
A value that is classified holds none of them (`fitsLong_of_classify`), and where a value without
NaN and without parts of foreign types is refused, it holds one, which the failure names together
with its location (`exists_outOfRange_of_classify`).
-/

namespace RecordSchema

variable {detection : Detection} {location : String}

/-- The integer fits 64 bits, one of them for the sign. -/
def FitsLong (n : ℤ) : Prop := minLong ≤ n ∧ n ≤ maxLong

instance (n : ℤ) : Decidable (FitsLong n) := inferInstanceAs (Decidable (_ ∧ _))

/-- The integer that a literal stands for. -/
def Literal.whole? : Literal → Option ℤ
  | .integer value => some value
  | .decimal value => value.whole?

/-- How a decimal that is the integer `n` is named when it does not fit: as it was written if its
first digit stands for `10 ^ 19` or more, and as the integer otherwise. -/
def Decimal.literal (n : ℤ) : Decimal → Literal
  | .finite negative coefficient exponent =>
    if 18 < Decimal.adjusted coefficient exponent then
      .decimal (.finite negative coefficient exponent)
    else .integer n
  | _ => .integer n

namespace Value

/-- An integer that does not fit 64 bits stands somewhere in the value. -/
def OutOfRange (value : Value) : Prop :=
  ∃ path, ∃ n ∈ wholes (observed path {value}), ¬ FitsLong n

/-- A value all of whose parts have types that records hold. -/
inductive Supported : Value → Prop
  | null : Supported .null
  | boolean (value : Bool) : Supported (.boolean value)
  | integer (value : ℤ) : Supported (.integer value)
  | decimal (value : Decimal) : Supported (.decimal value)
  | double (value : Double) : Supported (.double value)
  | string (value : String) : Supported (.string value)
  | array {items : List Value} (supported : ∀ item ∈ items, Supported item) :
      Supported (.array items)
  | object {members : List (String × Value)} (supported : ∀ member ∈ members, Supported member.2) :
      Supported (.object members)

end Value

/-! ### Single integers -/

lemma not_fitsLong_iff {n : ℤ} : ¬ FitsLong n ↔ n < minLong ∨ maxLong < n := by
  unfold FitsLong
  omega

lemma classifyInteger_of_fitsLong {n : ℤ} (h : FitsLong n) :
    classifyInteger n location = .ok (.integer n n) := by
  rw [classifyInteger, if_neg fun hout => not_fitsLong_iff.mpr hout h]

lemma classifyInteger_of_not_fitsLong {n : ℤ} (h : ¬ FitsLong n) :
    classifyInteger n location = .error (.outOfRange (.integer n) location) := by
  rw [classifyInteger, if_pos (not_fitsLong_iff.mp h)]

/-- A decimal of more than nineteen digits before the point does not fit. -/
lemma not_fitsLong_of_adjusted {negative : Bool} {coefficient : ℕ} {exponent n : ℤ}
    (hexponent : 0 ≤ exponent) (hcoefficient : coefficient ≠ 0)
    (hadjusted : 18 < Decimal.adjusted coefficient exponent)
    (hn : (Decimal.finite negative coefficient exponent).whole? = some n) : ¬ FitsLong n := by
  have hdigits : 10 ^ ((decimalDigits coefficient).length - 1) ≤ coefficient := by
    by_cases hone : (decimalDigits coefficient).length = 1
    · rw [hone]
      exact Nat.one_le_iff_ne_zero.mpr hcoefficient
    have hpos : 0 < (decimalDigits coefficient).length := Nat.length_toDigits_pos
    by_contra hlt
    have hle := (Nat.length_toDigits_le_iff (by decide) (by omega)).mpr (not_le.mp hlt)
    unfold decimalDigits at hpos hone hle
    omega
  have hpower : 10 ^ 19 ≤ coefficient * 10 ^ exponent.toNat := by
    unfold Decimal.adjusted at hadjusted
    calc 10 ^ 19 ≤ 10 ^ ((decimalDigits coefficient).length - 1 + exponent.toNat) :=
          Nat.pow_le_pow_right (by decide) (by omega)
      _ = 10 ^ ((decimalDigits coefficient).length - 1) * 10 ^ exponent.toNat := pow_add _ _ _
      _ ≤ coefficient * 10 ^ exponent.toNat := Nat.mul_le_mul_right _ hdigits
  have hmagnitude : (10 : ℤ) ^ 19 ≤ coefficient * 10 ^ exponent.toNat := by exact_mod_cast hpower
  simp only [Decimal.whole?, if_neg (not_lt.mpr hexponent), Option.some.injEq] at hn
  rw [not_fitsLong_iff, ← hn]
  unfold minLong maxLong
  generalize (coefficient : ℤ) * 10 ^ exponent.toNat = magnitude at *
  cases negative with
  | false =>
    right
    simp only [Bool.false_eq_true, if_false]
    omega
  | true =>
    left
    simp only [if_true]
    omega

/-- A decimal without digits after the point is its integer if it fits, and refused otherwise.  The
check of its first digit refuses none that fits. -/
lemma classifyDecimal_eq_of_whole? (location : String) {value : Decimal} {n : ℤ}
    (hwhole : value.whole? = some n) : classifyDecimal value location =
      if FitsLong n then .ok (.integer n n)
      else .error (.outOfRange (value.literal n) location) := by
  cases value with
  | infinite | quietNaN | signalingNaN => cases hwhole
  | finite negative coefficient exponent =>
    have hexponent : ¬ exponent < 0 := by
      intro hexponent
      simp [Decimal.whole?, hexponent] at hwhole
    have hn := hwhole
    simp only [Decimal.whole?, if_neg hexponent, Option.some.injEq] at hn
    unfold classifyDecimal
    dsimp only
    rw [if_neg hexponent]
    by_cases hzero : coefficient = 0
    · obtain rfl : n = 0 := by
        rw [← hn, hzero]
        simp
      rw [if_pos hzero, if_pos (by decide)]
    rw [if_neg hzero]
    by_cases hadjusted : 18 < Decimal.adjusted coefficient exponent
    · have hfits := not_fitsLong_of_adjusted (by omega) hzero hadjusted hwhole
      rw [if_pos hadjusted, if_neg hfits, Decimal.literal, if_pos hadjusted]
    · have hinteger : (if negative then -((coefficient : ℤ) * Nat.pow 10 exponent.toNat)
          else (coefficient : ℤ) * Nat.pow 10 exponent.toNat) = n := by
        rw [← hn]
        rfl
      rw [if_neg hadjusted, hinteger]
      by_cases hfits : FitsLong n
      · rw [if_pos hfits, classifyInteger_of_fitsLong hfits]
      · rw [if_neg hfits, classifyInteger_of_not_fitsLong hfits, Decimal.literal, if_neg hadjusted]

lemma Decimal.whole?_literal {value : Decimal} {n : ℤ} (hwhole : value.whole? = some n) :
    (value.literal n).whole? = some n := by
  cases value with
  | finite negative coefficient exponent =>
    rw [Decimal.literal]
    split
    · exact hwhole
    · rfl
  | _ => rfl

/-- The same, for the integer that the refused literal stands for. -/
lemma classifyDecimal_of_whole? (location : String) {value : Decimal} {n : ℤ}
    (hwhole : value.whole? = some n) :
    (FitsLong n ∧ classifyDecimal value location = .ok (.integer n n)) ∨
      (¬ FitsLong n ∧ ∃ literal, literal.whole? = some n ∧
        classifyDecimal value location = .error (.outOfRange literal location)) := by
  rw [classifyDecimal_eq_of_whole? location hwhole]
  by_cases hfits : FitsLong n
  · exact Or.inl ⟨hfits, if_pos hfits⟩
  · exact Or.inr ⟨hfits, value.literal n, Decimal.whole?_literal hwhole, if_neg hfits⟩

/-- A decimal with digits after the point is never refused. -/
lemma exists_classifyDecimal_of_fraction (location : String) {value : Decimal}
    (hwhole : value.whole? = none) (hsignaling : value ≠ .signalingNaN) :
    ∃ node, classifyDecimal value location = .ok node := by
  cases value with
  | signalingNaN => exact absurd rfl hsignaling
  | infinite negative => exact ⟨_, rfl⟩
  | quietNaN => exact ⟨_, rfl⟩
  | finite negative coefficient exponent =>
    have hexponent : exponent < 0 := by
      by_contra hexponent
      simp [Decimal.whole?, hexponent] at hwhole
    unfold classifyDecimal
    dsimp only
    rw [if_pos hexponent]
    cases hdouble : (Decimal.finite negative coefficient exponent).toDouble? with
    | some x => exact ⟨_, rfl⟩
    | none =>
      -- only a signaling NaN refuses conversion
      simp only [Decimal.toDouble?] at hdouble
      split_ifs at hdouble

/-! ### Parts of refused values -/

lemma exists_of_classifyItems_eq_error {element : Node} {items : List Value} {failure : Failure}
    (h : classifyItems detection location element items = .error failure) :
    ∃ item ∈ items, classify detection location item = .error failure := by
  rw [← failure?_eq_some_iff, failure?_classifyItems] at h
  obtain ⟨item, hitem, hfailure⟩ := List.exists_of_findSome?_eq_some h
  exact ⟨item, hitem, failure?_eq_some_iff.mp hfailure⟩

lemma exists_of_classifyMembers_eq_error {members : List (String × Value)} {failure : Failure}
    (h : classifyMembers detection location members = .error failure) :
    ∃ member ∈ members,
      classify detection (location ++ "." ++ member.1) member.2 = .error failure := by
  rw [← failure?_eq_some_iff, failure?_classifyMembers] at h
  obtain ⟨member, hmember, hfailure⟩ := List.exists_of_findSome?_eq_some h
  exact ⟨member, hmember, failure?_eq_some_iff.mp hfailure⟩

/-! ### Whole values -/

/-- Nothing is observed below a scalar. -/
lemma eq_nil_of_mem_observed {path : List Step} {value part : Value}
    (harray : ∀ items, value ≠ .array items) (hobject : ∀ members, value ≠ .object members)
    (h : part ∈ observed path {value}) : path = [] ∧ part = value := by
  cases path with
  | nil => exact ⟨rfl, h⟩
  | cons step path =>
    obtain ⟨next, hleads, -⟩ := mem_observed_cons.mp h
    cases hleads with
    | member => exact absurd rfl (hobject _)
    | item => exact absurd rfl (harray _)

/-- All integers within a classified value fit 64 bits. -/
theorem fitsLong_of_classify {value : Value} {node : Node}
    (h : classify detection location value = .ok node) {path : List Step} {part : Value}
    (hpart : part ∈ observed path {value}) {n : ℤ} (hn : part.whole? = some n) : FitsLong n := by
  induction value using Value.induction generalizing location node path with
  | array items ih =>
    cases path with
    | nil =>
      obtain rfl : part = .array items := hpart
      cases hn
    | cons step path =>
      obtain ⟨next, hleads, hnext⟩ := mem_observed_cons.mp hpart
      obtain ⟨nodes, hnodes, -⟩ := classify_array_eq_ok_iff.mp h
      cases hleads with
      | item hmem =>
        obtain ⟨node, -, hnode⟩ := exists_of_mem_left hnodes hmem
        exact ih next hmem hnode hnext
  | object members ih =>
    cases path with
    | nil =>
      obtain rfl : part = .object members := hpart
      cases hn
    | cons step path =>
      obtain ⟨next, hleads, hnext⟩ := mem_observed_cons.mp hpart
      obtain ⟨fields, hfields, -⟩ := classify_object_eq_ok_iff.mp h
      cases hleads with
      | member hmem =>
        obtain ⟨field, -, -, hnode⟩ := exists_of_mem_left hfields hmem
        exact ih _ hmem hnode hnext
  | integer value =>
    obtain ⟨-, rfl⟩ := eq_nil_of_mem_observed (by simp) (by simp) hpart
    cases hn
    by_contra hfits
    rw [classify, classifyInteger_of_not_fitsLong hfits] at h
    cases h
  | decimal value =>
    obtain ⟨-, rfl⟩ := eq_nil_of_mem_observed (by simp) (by simp) hpart
    rw [classify] at h
    rcases classifyDecimal_of_whole? location hn with ⟨hfits, -⟩ | ⟨-, _, -, herror⟩
    · exact hfits
    · rw [herror] at h
      cases h
  | _ =>
    obtain ⟨-, rfl⟩ := eq_nil_of_mem_observed (by simp) (by simp) hpart
    cases hn

/-- A clean value of supported types is refused only for an integer that does not fit, and the
failure tells which one and where it stands. -/
theorem exists_outOfRange_of_classify {value : Value} (hclean : value.Clean)
    (hsupported : value.Supported) {failure : Failure}
    (h : classify detection location value = .error failure) : ∃ path part n literal,
      part ∈ observed path {value} ∧ part.whole? = some n ∧ ¬ FitsLong n ∧
        literal.whole? = some n ∧ failure = .outOfRange literal (locate location path) := by
  -- the location is extended on the way down, as the path is
  induction hclean generalizing location with
  | null | boolean | string | double =>
    rw [classify] at h
    cases h
  | unsupported => cases hsupported
  | integer n =>
    rw [classify] at h
    by_cases hfits : FitsLong n
    · rw [classifyInteger_of_fitsLong hfits] at h
      cases h
    · rw [classifyInteger_of_not_fitsLong hfits] at h
      cases h
      exact ⟨[], .integer n, n, .integer n, rfl, rfl, hfits, rfl, rfl⟩
  | @decimal value _ signaling =>
    rw [classify] at h
    cases hwhole : value.whole? with
    | none =>
      obtain ⟨node, hnode⟩ := exists_classifyDecimal_of_fraction location hwhole signaling
      rw [hnode] at h
      cases h
    | some n =>
      rcases classifyDecimal_of_whole? location hwhole with
        ⟨-, hok⟩ | ⟨hfits, literal, hliteral, herror⟩
      · rw [hok] at h
        cases h
      · rw [herror] at h
        cases h
        exact ⟨[], .decimal value, n, literal, rfl, hwhole, hfits, hliteral, rfl⟩
  | @array items _ ih =>
    cases hsupported with
    | array supported =>
      rw [classify] at h
      rcases bind_eq_error_iff.mp h with herror | ⟨node, -, hnode⟩
      · obtain ⟨item, hitem, hfailure⟩ := exists_of_classifyItems_eq_error herror
        obtain ⟨path, part, n, literal, hpart, hrest⟩ := ih item hitem (supported item hitem) hfailure
        exact ⟨.element :: path, part, n, literal,
          mem_observed_cons.mpr ⟨item, .item hitem, hpart⟩, hrest⟩
      · cases hnode
  | @object members _ _ ih =>
    cases hsupported with
    | object supported =>
      rw [classify] at h
      rcases bind_eq_error_iff.mp h with herror | ⟨node, -, hnode⟩
      · obtain ⟨member, hmember, hfailure⟩ := exists_of_classifyMembers_eq_error herror
        rw [String.append_assoc] at hfailure
        obtain ⟨path, part, n, literal, hpart, hrest⟩ :=
          ih member hmember (supported member hmember) hfailure
        exact ⟨.field member.1 :: path, part, n, literal,
          mem_observed_cons.mpr ⟨member.2, .member hmember, hpart⟩, hrest⟩
      · cases hnode

/-- A clean value of supported types is refused exactly if it holds an integer that does not fit. -/
theorem outOfRange_iff {value : Value} (hclean : value.Clean) (hsupported : value.Supported)
    (detection : Detection) (location : String) : value.OutOfRange ↔
      ∃ literal path, classify detection location value = .error (.outOfRange literal path) := by
  constructor
  · rintro ⟨path, n, ⟨part, hpart, hn⟩, hfits⟩
    cases h : classify detection location value with
    | ok node => exact absurd (fitsLong_of_classify h hpart hn) hfits
    | error failure =>
      obtain ⟨path, part, n, literal, -, -, -, -, rfl⟩ :=
        exists_outOfRange_of_classify hclean hsupported h
      exact ⟨_, _, rfl⟩
  · rintro ⟨literal, location', h⟩
    obtain ⟨path, part, n, -, hpart, hn, hfits, -⟩ :=
      exists_outOfRange_of_classify hclean hsupported h
    exact ⟨path, n, ⟨part, hpart, hn⟩, hfits⟩

end RecordSchema
