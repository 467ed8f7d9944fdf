import RecordSchema.Proofs.Inference.Characterization
import RecordSchema.Proofs.Inference.Range
import RecordSchema.Proofs.Render.Context

/-!
# The types of numbers

The type that is printed for numbers holds everything observed and is the narrowest that does.
Integers have four types of growing widths.  Once a fraction was observed, the numbers have one of
two floating-point types, told apart by the doubles nearest to them.

`NumericType` says which type that is, for the numbers observed at a path and without looking at a
schema.  The main statement is `infer_numericType`: a schema prints it at that path, in each of its
texts.
-/

namespace RecordSchema

variable {detection : Detection}

/-! ### Integer types -/

/-- The types of signed integers. -/
inductive IntegerType where
  | tinyint
  | smallint
  | int
  | bigint
deriving DecidableEq, Repr

namespace IntegerType

/-- How a type is printed. -/
def name : IntegerType → String
  | tinyint => "tinyint"
  | smallint => "smallint"
  | int => "int"
  | bigint => "bigint"

/-- The width of a type, its sign included. -/
def bits : IntegerType → ℕ
  | tinyint => 8
  | smallint => 16
  | int => 32
  | bigint => 64

/-- The integer lies in the range of the type. -/
def Holds (type : IntegerType) (n : ℤ) : Prop :=
  -2 ^ (type.bits - 1) ≤ n ∧ n ≤ 2 ^ (type.bits - 1) - 1

/-- The type holds all of the integers, and no narrower one does. -/
def IsNarrowest (type : IntegerType) (integers : Set ℤ) : Prop :=
  (∀ n ∈ integers, type.Holds n) ∧
    ∀ other : IntegerType, (∀ n ∈ integers, other.Holds n) → type.bits ≤ other.bits

/-- A type holds all integers from a least to a greatest one if it holds these two. -/
lemma forall_holds_iff {integers : Set ℤ} {min max : ℤ} (hmin : IsLeast integers min)
    (hmax : IsGreatest integers max) (type : IntegerType) :
    (∀ n ∈ integers, type.Holds n) ↔
      -2 ^ (type.bits - 1) ≤ min ∧ max ≤ 2 ^ (type.bits - 1) - 1 := by
  constructor
  · intro h
    exact ⟨(h min hmin.1).1, (h max hmax.1).2⟩
  · rintro ⟨hlow, hhigh⟩ n hn
    exact ⟨hlow.trans (hmin.2 hn), (hmax.2 hn).trans hhigh⟩

end IntegerType

/-- The name of a range of integers is that of the narrowest type that holds them. -/
theorem exists_isNarrowest {integers : Set ℤ} {min max : ℤ} (hmin : IsLeast integers min)
    (hmax : IsGreatest integers max) (hfits : ∀ n ∈ integers, FitsLong n) :
    ∃ type : IntegerType, integerTypeName min max = type.name ∧ type.IsNarrowest integers := by
  have hholds := IntegerType.forall_holds_iff hmin hmax
  have hlow := (hfits min hmin.1).1
  have hhigh := (hfits max hmax.1).2
  -- a narrower type fails at one of the two bounds
  have hnarrowest : ∀ type : IntegerType,
      -2 ^ (type.bits - 1) ≤ min ∧ max ≤ 2 ^ (type.bits - 1) - 1 →
      (∀ other : IntegerType, other.bits < type.bits →
        ¬ (-2 ^ (other.bits - 1) ≤ min ∧ max ≤ 2 ^ (other.bits - 1) - 1)) →
      type.IsNarrowest integers := by
    intro type htype hothers
    refine ⟨(hholds type).mpr htype, fun other hother => ?_⟩
    by_contra hbits
    exact hothers other (not_le.mp hbits) ((hholds other).mp hother)
  unfold minLong at hlow
  unfold maxLong at hhigh
  unfold integerTypeName
  split_ifs with htiny hsmall hint
  · refine ⟨.tinyint, rfl, hnarrowest _ ?_ ?_⟩
    · norm_num [IntegerType.bits]
      exact htiny
    · intro other
      cases other <;> norm_num [IntegerType.bits]
  · refine ⟨.smallint, rfl, hnarrowest _ ?_ ?_⟩
    · norm_num [IntegerType.bits]
      omega
    · intro other
      cases other <;> norm_num [IntegerType.bits]
      omega
  · refine ⟨.int, rfl, hnarrowest _ ?_ ?_⟩
    · norm_num [IntegerType.bits]
      omega
    · intro other
      cases other <;> norm_num [IntegerType.bits] <;> omega
  · refine ⟨.bigint, rfl, hnarrowest _ ?_ ?_⟩
    · norm_num [IntegerType.bits]
      omega
    · intro other
      cases other <;> norm_num [IntegerType.bits] <;> omega

/-! ### Floating-point types -/

namespace Double

/-- The magnitude of the double does not exceed the 32-bit format. -/
def FitsSingle (x : Double) : Prop := x.abs.AtMost singleMax

instance (x : Double) : Decidable x.FitsSingle :=
  inferInstanceAs (Decidable (x.abs.AtMost singleMax))

lemma place?_abs {x : Double} {place : ℤ} (h : x.place? = some place) :
    x.abs.place? = some |place| := by
  cases x with
  | nan => cases h
  | number negative magnitude =>
    rw [place?_number, Option.some.injEq] at h
    rw [abs, place?_number, ← h]
    cases negative <;> simp

lemma place?_singleMax : singleMax.place? = some 0x47efffffe0000000 := rfl

lemma fitsSingle_iff {x : Double} {place : ℤ} (h : x.place? = some place) :
    x.FitsSingle ↔ |place| ≤ 0x47efffffe0000000 :=
  atMost_iff (place?_abs h) place?_singleMax

/-- A range stays within the 32-bit format if both of its bounds do. -/
lemma exceedsSingle_iff {lo hi : Double} {x y : ℤ} (hlo : lo.place? = some x)
    (hhi : hi.place? = some y) :
    exceedsSingle lo hi = true ↔ ¬ (lo.FitsSingle ∧ hi.FitsSingle) := by
  rw [exceedsSingle, lt_of_place? place?_singleMax (place?_max (place?_abs hhi) (place?_abs hlo)),
    decide_eq_true_eq, fitsSingle_iff hlo, fitsSingle_iff hhi]
  omega

end Double

/-- The name of a range of doubles: `float` if all of them stay within the 32-bit format, where NaN
does not count. -/
theorem floatingTypeName_eq_float_iff_of_ne_nan {values : Set Value} {min max : Double}
    {first last : ℤ} (hmin : min.place? = some first) (hmax : max.place? = some last)
    (hfirst : IsLeast (places values) first) (hlast : IsGreatest (places values) last) :
    floatingTypeName min max = "float" ↔ ∀ x ∈ doubles values, x ≠ .nan → x.FitsSingle := by
  have hname : floatingTypeName min max = "float" ↔ min.FitsSingle ∧ max.FitsSingle := by
    unfold floatingTypeName
    by_cases hexceeds : Double.exceedsSingle min max = true
    · rw [if_pos hexceeds]
      simpa using (Double.exceedsSingle_iff hmin hmax).mp hexceeds
    · rw [if_neg hexceeds]
      simpa using fun h => hexceeds ((Double.exceedsSingle_iff hmin hmax).mpr h)
  rw [hname, Double.fitsSingle_iff hmin, Double.fitsSingle_iff hmax]
  constructor
  · rintro ⟨hlow, hhigh⟩ x hx hnumber
    cases x with
    | nan => exact absurd rfl hnumber
    | number negative magnitude =>
      have hplace := Double.place?_number negative magnitude
      have hmem : (if negative then -(magnitude : ℤ) else magnitude) ∈ places values :=
        ⟨_, hx, hplace⟩
      rw [Double.fitsSingle_iff hplace]
      have hlower := hfirst.2 hmem
      have hupper := hlast.2 hmem
      rw [abs_le] at *
      omega
  · intro h
    obtain ⟨x, hx, hplace⟩ := hfirst.1
    obtain ⟨y, hy, hplace'⟩ := hlast.1
    have hnumber : x ≠ .nan := by
      rintro rfl
      cases hplace
    have hnumber' : y ≠ .nan := by
      rintro rfl
      cases hplace'
    exact ⟨(Double.fitsSingle_iff hplace).mp (h x hx hnumber),
      (Double.fitsSingle_iff hplace').mp (h y hy hnumber')⟩

/-- The same where no double is NaN. -/
theorem floatingTypeName_eq_float_iff {values : Set Value} {min max : Double} {first last : ℤ}
    (hmin : min.place? = some first) (hmax : max.place? = some last)
    (hfirst : IsLeast (places values) first) (hlast : IsGreatest (places values) last)
    (hnumbers : ∀ x ∈ doubles values, x ≠ .nan) :
    floatingTypeName min max = "float" ↔ ∀ x ∈ doubles values, x.FitsSingle := by
  rw [floatingTypeName_eq_float_iff_of_ne_nan hmin hmax hfirst hlast]
  constructor
  · intro h x hx
    exact h x hx (hnumbers x hx)
  · intro h x hx _
    exact h x hx

/-! ### What is observed among clean values -/

/-- A number of any kind. -/
def Value.IsNumber : Value → Prop
  | .integer _ | .decimal _ | .double _ => True
  | _ => False

lemma Value.IsNumber.family?_eq {value : Value} (h : value.IsNumber) :
    value.family? detection = some .floating := by
  cases value with
  | integer | decimal | double => rfl
  | _ => cases h

/-- Steps lead from clean values to clean values. -/
lemma Leads.clean {step : Step} {value part : Value} (h : Leads step value part)
    (hclean : value.Clean) : part.Clean := by
  cases h with
  | member mem =>
    cases hclean with
    | object _ clean => exact clean _ mem
  | item mem =>
    cases hclean with
    | array clean => exact clean _ mem

lemma clean_of_mem_observed {path : List Step} {values : Set Value}
    (hclean : ∀ value ∈ values, value.Clean) {part : Value} (hpart : part ∈ observed path values) :
    part.Clean := by
  induction path generalizing values with
  | nil => exact hclean part hpart
  | cons step path ih =>
    refine ih (fun next hnext => ?_) hpart
    obtain ⟨value, hvalue, hleads⟩ := hnext
    exact hleads.clean (hclean value hvalue)

/-- The double of a clean number is no NaN. -/
lemma ne_nan_of_mem_doubles {values : Set Value} (hclean : ∀ value ∈ values, value.Clean)
    {x : Double} (hx : x ∈ doubles values) : x ≠ .nan := by
  obtain ⟨value, hvalue, hdouble⟩ := hx
  cases hclean value hvalue with
  | integer n =>
    cases hdouble
    simp [Double.ofInt]
  | decimal quiet _ =>
    rintro rfl
    exact toDouble?_ne_nan quiet hdouble
  | double number =>
    cases hdouble
    exact number
  | _ => cases hdouble

/-- A clean number has a double. -/
lemma exists_double_of_clean {value : Value} (hnumber : value.IsNumber) (hclean : value.Clean) :
    ∃ x, value.double? = some x := by
  cases hclean with
  | integer n => exact ⟨_, rfl⟩
  | double => exact ⟨_, rfl⟩
  | @decimal value _ signaling =>
    cases value with
    | signalingNaN => exact absurd rfl signaling
    | infinite | quietNaN => exact ⟨_, rfl⟩
    | finite negative coefficient exponent =>
      show ∃ x, (Decimal.finite negative coefficient exponent).toDouble? = some x
      unfold Decimal.toDouble?
      dsimp only
      split_ifs <;> exact ⟨_, rfl⟩
  | _ => cases hnumber

/-! ### Numbers at a path -/

/-- The name of the type of numbers that holds those among the values and is the narrowest. -/
structure NumericType (values : Set Value) (name : String) : Prop where
  /-- All numbers are integers. -/
  whole : (∀ value ∈ values, value.IsNumber → (value.whole?).isSome) →
    ∃ type : IntegerType, name = type.name ∧ type.IsNarrowest (wholes values)
  /-- Some number is not. -/
  fraction : (∃ value ∈ values, value.IsNumber ∧ value.whole? = none) →
    (name = "float" ∧ ∀ x ∈ doubles values, x.FitsSingle) ∨
      (name = "double" ∧ ∃ x ∈ doubles values, ¬ x.FitsSingle)

lemma floatingTypeName_eq_or (min max : Double) :
    floatingTypeName min max = "float" ∨ floatingTypeName min max = "double" := by
  unfold floatingTypeName
  split
  · exact Or.inr rfl
  · exact Or.inl rfl

/-- An alternative for numbers is printed with the type of the values that its node matches. -/
lemma Matches.numericType {values : Set Value} {node number : Node}
    (h : Matches detection values node) (hnode : node.IsSchema)
    (hclean : ∀ value ∈ values, value.Clean) (hfits : ∀ n ∈ wholes values, FitsLong n)
    (hmem : number ∈ node.alternatives) (hnumber : number.kind.family = .floating) :
    NumericType values number.primitiveName := by
  cases number with
  | integer min max =>
    obtain ⟨hwhole, hleast, hgreatest⟩ := h.of_integer_mem hnode hmem
    refine ⟨fun _ => exists_isNarrowest hleast hgreatest hfits, ?_⟩
    rintro ⟨value, hvalue, hisNumber, hfraction⟩
    exact absurd ⟨hfraction, exists_double_of_clean hisNumber (hclean value hvalue)⟩
      (hwhole value hvalue)
  | floating min max =>
    obtain ⟨⟨value, hvalue, hfraction⟩, first, last, hmin, hmax, hfirst, hlast⟩ :=
      h.of_floating_mem hnode hmem
    constructor
    · intro hwhole
      obtain ⟨x, hdouble⟩ := hfraction.2
      have hisNumber : value.IsNumber := by
        cases value with
        | integer | decimal | double => trivial
        | _ => cases hdouble
      exact absurd hfraction.1 (Option.isSome_iff_ne_none.mp (hwhole value hvalue hisNumber))
    · intro _
      have hname := floatingTypeName_eq_float_iff hmin hmax hfirst hlast
        fun x hx => ne_nan_of_mem_doubles hclean hx
      rcases floatingTypeName_eq_or min max with hfloat | hdouble
      · exact Or.inl ⟨hfloat, hname.mp hfloat⟩
      · refine Or.inr ⟨hdouble, ?_⟩
        by_contra hall
        simp only [not_exists, not_and, not_not] at hall
        have hfloat := hname.mpr hall
        rw [hdouble] at hfloat
        exact absurd hfloat (by decide)
  | _ => simp [Node.kind, Kind.family] at hnumber

namespace Node

lemma isPrintedByName_of_family {node : Node} (h : node.kind.family = .floating) :
    node.IsPrintedByName := by
  cases node with
  | integer | floating => exact ⟨rfl, fun _ _ => rfl, fun _ => rfl⟩
  | _ => simp [kind, Kind.family] at h

/-- The texts of a node show a name in the place that a context leaves open. -/
structure Shows (node : Node) (layers : List Layer) (name : String) : Prop where
  typeText : node.typeText = openings layers ++ name ++ closings layers
  indented : ∀ indent margin, node.indented indent margin =
    indentedOpenings indent margin layers ++ name ++ indentedClosings indent margin layers
  /-- There is a line at the location of the outermost union on the way, or at that of the place
  itself. -/
  listing : ∀ root, ∃ outer inner, layers = outer ++ inner ∧
    (∀ layer ∈ outer, layer.step?.isSome) ∧ (∀ layer ∈ inner.head?, layer.step? = none) ∧
      ∃ leaf ∈ node.leaves root, leaf.text =
        locate root (steps outer) ++ ": " ++ openings inner ++ name ++ closings inner

lemma IsPrintedByName.shows {inner : Node} (h : inner.IsPrintedByName) (layers : List Layer) :
    Shows (fill layers inner) layers inner.primitiveName where
  typeText := by rw [typeText_fill, h.typeText]
  indented indent margin := by rw [indented_fill, h.indented]
  listing root := by
    obtain ⟨outer, rest, hlayers, houter, hrest, hleaf⟩ := exists_leaf_fill root layers h.leaves
    refine ⟨outer, rest, hlayers, houter, hrest, _, hleaf, ?_⟩
    rw [Leaf.text, typeText_fill, h.typeText]
    simp only [String.append_assoc]

end Node

/-- Where numbers are observed, a schema has one alternative for numbers, and prints it with the
narrowest type that holds all of them. -/
theorem infer_numericType {records : List Value} (hclean : ∀ record ∈ records, record.Clean)
    {node : Node} (h : Node.infer detection records = .ok node) {path : List Step}
    (hnumber : ∃ value ∈ observed path {record | record ∈ records}, value.IsNumber) :
    ∃ number ∈ (node.descend path).alternatives, ∃ layers,
      (∀ alternative ∈ (node.descend path).alternatives,
        alternative.kind.family = .floating ↔ alternative = number) ∧
      Node.steps layers = path ∧ node = Node.fill layers number ∧
      NumericType (observed path {record | record ∈ records}) number.primitiveName ∧
      node.Shows layers number.primitiveName := by
  have hmatches : Matches detection (observed path {record | record ∈ records})
      (node.descend path) := explains_of_infer hclean h path
  have hschema := Node.isSchema_descend (Node.isSchema_of_infer hclean h) path
  have hobserved : ∀ value ∈ observed path {record | record ∈ records}, value.Clean :=
    fun value hvalue => clean_of_mem_observed hclean hvalue
  have hfits : ∀ n ∈ wholes (observed path {record | record ∈ records}), FitsLong n := by
    rintro n ⟨part, hpart, hn⟩
    obtain ⟨record, hrecord, hpart⟩ := mem_observed_iff.mp hpart
    obtain ⟨nodes, hnodes, -⟩ := infer_eq_ok_iff.mp h
    obtain ⟨_, -, hok⟩ := exists_of_mem_left hnodes hrecord
    exact fitsLong_of_classify hok hpart hn
  obtain ⟨value, hvalue, hisNumber⟩ := hnumber
  obtain ⟨number, hmem, hfamily, -⟩ := hmatches.exists_of_mem hvalue hisNumber.family?_eq
  obtain ⟨layers, hsteps, hfill⟩ := Node.exists_layers_of_descend path hmem
  refine ⟨number, hmem, layers, fun alternative halternative => ?_, hsteps, hfill.symm,
    hmatches.numericType hschema hobserved hfits hmem hfamily, ?_⟩
  · constructor
    · intro hkind
      have hpick := Node.pick_of_mem hschema.nodup_families halternative
      rw [hkind, ← hfamily, Node.pick_of_mem hschema.nodup_families hmem] at hpick
      exact hpick.symm
    · rintro rfl
      exact hfamily
  · rw [← hfill]
    exact (Node.isPrintedByName_of_family hfamily).shows layers

/-- The elements of two arrays: an integer beyond eight bits among strings, and a fraction. -/
theorem infer_numericType_of_elements : ∃ node,
    Node.infer {} [.array [.integer 300, .string "x"], .array [.decimal (.finite false 5 (-1))]] =
      .ok node ∧
    ∃ number ∈ (node.descend [.element]).alternatives, ∃ layers,
      (∀ alternative ∈ (node.descend [.element]).alternatives,
        alternative.kind.family = .floating ↔ alternative = number) ∧
      Node.steps layers = [.element] ∧ node = Node.fill layers number ∧
      NumericType (observed [.element] {record | record ∈
        [.array [.integer 300, .string "x"], .array [.decimal (.finite false 5 (-1))]]})
        number.primitiveName ∧
      node.Shows layers number.primitiveName := by
  obtain ⟨node, hnode⟩ : ∃ node, Node.infer {}
      [.array [.integer 300, .string "x"], .array [.decimal (.finite false 5 (-1))]] = .ok node :=
    ⟨_, rfl⟩
  have hnumber : ∃ value ∈ observed [.element] {record | record ∈
      [.array [.integer 300, .string "x"], .array [.decimal (.finite false 5 (-1))]]},
      value.IsNumber :=
    ⟨.integer 300, ⟨_, List.mem_cons_self, .item List.mem_cons_self⟩, trivial⟩
  exact ⟨node, hnode, infer_numericType (by decide) hnode hnumber⟩

/-- One of them is no integer, and all are small. -/
example : (Node.infer {} [.array [.integer 300, .string "x"],
    .array [.decimal (.finite false 5 (-1))]]).map Node.typeText =
      .ok "array<uniontype<float,string>>" := by
  decide +kernel

end RecordSchema
