import RecordSchema.Proofs.Inference.Classified
import RecordSchema.Proofs.Node.Descent
import RecordSchema.Proofs.Node.Span

/-!
# What is observed

The values that are observed at a path are those that it leads to within any of the records.  They
fall into families, as the alternatives of a node do: numbers, strings that are no timestamps, and
so on.  `Fits` says which alternative describes the observed values of one family, without merging
anything: it depends on which values there are, and for numbers on the least and the greatest of
them.

What fits two groups of values merges into what fits both of them together (`Fits.merge`).
-/

namespace RecordSchema

/-! ### Numbers -/

/-- The integer that a decimal without digits after the point is. -/
def Decimal.whole? : Decimal → Option ℤ
  | .finite negative coefficient exponent =>
    if exponent < 0 then none
    else
      let magnitude : ℤ := coefficient * 10 ^ exponent.toNat
      some (if negative then -magnitude else magnitude)
  | _ => none

namespace Value

/-- The integer that a number without digits after the point is. -/
def whole? : Value → Option ℤ
  | .integer value => some value
  | .decimal value => value.whole?
  | _ => none

/-- The double nearest to a number. -/
def double? : Value → Option Double
  | .integer value => some (.ofInt value)
  | .decimal value => value.toDouble?
  | .double value => some value
  | _ => none

/-- A number that does not count as an integer. -/
def IsFraction (value : Value) : Prop := value.whole? = none ∧ ∃ x, value.double? = some x

end Value

/-- The integers among values. -/
def wholes (values : Set Value) : Set ℤ := {n | ∃ value ∈ values, value.whole? = some n}

/-- The doubles nearest to the numbers among values. -/
def doubles (values : Set Value) : Set Double := {x | ∃ value ∈ values, value.double? = some x}

/-- The places of these doubles. -/
def places (values : Set Value) : Set ℤ := {n | ∃ x ∈ doubles values, x.place? = some n}

lemma wholes_union (values others : Set Value) :
    wholes (values ∪ others) = wholes values ∪ wholes others := by
  ext n
  simp only [wholes, Set.mem_union, Set.mem_ofPred_eq, or_and_right, exists_or]

lemma places_union (values others : Set Value) :
    places (values ∪ others) = places values ∪ places others := by
  ext n
  simp only [places, doubles, Set.mem_union, Set.mem_ofPred_eq, or_and_right, exists_or]

lemma wholes_singleton {value : Value} {n : ℤ} (h : value.whole? = some n) :
    wholes {value} = {n} := by
  ext m
  simp [wholes, h, eq_comm]

lemma places_singleton {value : Value} {x : Double} {n : ℤ} (h : value.double? = some x)
    (hplace : x.place? = some n) : places {value} = {n} := by
  ext m
  simp [places, doubles, h, hplace, eq_comm]

/-! ### Strings -/

namespace Detection

/-- A string that is told apart as a timestamp. -/
def IsTimestamp (detection : Detection) (text : String) : Prop :=
  detection.timestamps = true ∧ Timestamp.isTimestamp text = true

/-- A string that is told apart as binary data, unless it is a timestamp. -/
def IsBinary (detection : Detection) (text : String) : Prop :=
  detection.binary = true ∧ Hex.isHex text = true

instance (detection : Detection) (text : String) : Decidable (detection.IsTimestamp text) :=
  inferInstanceAs (Decidable (_ ∧ _))

instance (detection : Detection) (text : String) : Decidable (detection.IsBinary text) :=
  inferInstanceAs (Decidable (_ ∧ _))

end Detection

variable {detection : Detection}

lemma classifyString_eq (detection : Detection) (text : String) :
    classifyString detection text =
      if detection.IsTimestamp text then .timestamp
      else if detection.IsBinary text then .binary else .string := by
  simp only [classifyString, Bool.and_eq_true]
  rfl

/-! ### Families of values -/

/-- The family of the alternatives that describe a value. -/
def Value.family? (detection : Detection) : Value → Option Kind
  | .null | .unsupported _ => none
  | .boolean _ => some .boolean
  | .integer _ | .decimal _ | .double _ => some .floating
  | .string text => some (if detection.IsTimestamp text then .timestamp else .string)
  | .array _ => some .list
  | .object _ => some .struct

lemma Value.family?_eq_of_double? (value : Value) {x : Double} (h : value.double? = some x) :
    value.family? detection = some .floating := by
  cases value with
  | integer | decimal | double => rfl
  | _ => cases h

lemma Value.family?_eq_of_whole? (value : Value) {n : ℤ} (h : value.whole? = some n) :
    value.family? detection = some .floating := by
  cases value with
  | integer | decimal => rfl
  | _ => cases h

lemma Value.family?_eq_boolean_iff {value : Value} :
    value.family? detection = some .boolean ↔ ∃ b, value = .boolean b := by
  cases value with
  | string text => by_cases htext : detection.IsTimestamp text <;> simp [family?, htext]
  | _ => simp [family?]

lemma Value.family?_eq_list_iff {value : Value} :
    value.family? detection = some .list ↔ ∃ items, value = .array items := by
  cases value with
  | string text => by_cases htext : detection.IsTimestamp text <;> simp [family?, htext]
  | _ => simp [family?]

lemma Value.family?_eq_struct_iff {value : Value} :
    value.family? detection = some .struct ↔ ∃ members, value = .object members := by
  cases value with
  | string text => by_cases htext : detection.IsTimestamp text <;> simp [family?, htext]
  | _ => simp [family?]

lemma Value.family?_eq_string_iff {value : Value} : value.family? detection = some .string ↔
    ∃ text, value = .string text ∧ ¬ detection.IsTimestamp text := by
  cases value with
  | string text => by_cases htext : detection.IsTimestamp text <;> simp [family?, htext]
  | _ => simp [family?]

lemma Value.family?_eq_timestamp_iff {value : Value} : value.family? detection = some .timestamp ↔
    ∃ text, value = .string text ∧ detection.IsTimestamp text := by
  cases value with
  | string text => by_cases htext : detection.IsTimestamp text <;> simp [family?, htext]
  | _ => simp [family?]

/-- The values of one family. -/
def ofFamily (detection : Detection) (family : Kind) (values : Set Value) : Set Value :=
  {value ∈ values | value.family? detection = some family}

lemma wholes_ofFamily {values : Set Value} :
    wholes (ofFamily detection .floating values) = wholes values := by
  ext n
  constructor
  · rintro ⟨value, hvalue, hwhole⟩
    exact ⟨value, hvalue.1, hwhole⟩
  · rintro ⟨value, hvalue, hwhole⟩
    exact ⟨value, ⟨hvalue, value.family?_eq_of_whole? hwhole⟩, hwhole⟩

lemma places_ofFamily {values : Set Value} :
    places (ofFamily detection .floating values) = places values := by
  ext n
  constructor
  · rintro ⟨x, ⟨value, hvalue, hdouble⟩, hplace⟩
    exact ⟨x, ⟨value, hvalue.1, hdouble⟩, hplace⟩
  · rintro ⟨x, ⟨value, hvalue, hdouble⟩, hplace⟩
    exact ⟨x, ⟨value, ⟨hvalue, value.family?_eq_of_double? hdouble⟩, hdouble⟩, hplace⟩

lemma ofFamily_union (family : Kind) (values others : Set Value) :
    ofFamily detection family (values ∪ others) =
      ofFamily detection family values ∪ ofFamily detection family others :=
  Set.sep_union

lemma ofFamily_empty (family : Kind) : ofFamily detection family ∅ = ∅ :=
  Set.sep_empty _

/-! ### Values at a path -/

/-- What a step leads to within a value. -/
inductive Leads : Step → Value → Value → Prop
  | member {name : String} {value : Value} {members : List (String × Value)}
      (mem : (name, value) ∈ members) : Leads (.field name) (.object members) value
  | item {item : Value} {items : List Value} (mem : item ∈ items) :
      Leads .element (.array items) item

/-- A step leads into values of its family only. -/
lemma Leads.family?_eq {step : Step} {value other : Value} (h : Leads step value other)
    (detection : Detection) : value.family? detection = some step.family := by
  cases h <;> rfl

/-- The values that a step leads to. -/
def after (step : Step) (values : Set Value) : Set Value :=
  {value | ∃ other ∈ values, Leads step other value}

/-- The values that are observed at a path. -/
def observed : List Step → Set Value → Set Value
  | [], values => values
  | step :: path, values => observed path (after step values)

lemma mem_after_singleton {step : Step} {value other : Value} :
    other ∈ after step {value} ↔ Leads step value other := by
  simp only [after, Set.mem_ofPred_eq, Set.mem_singleton_iff, exists_eq_left]

lemma after_singleton_eq_empty (detection : Detection) {step : Step} {value : Value}
    (h : value.family? detection ≠ some step.family) : after step {value} = ∅ := by
  ext other
  rw [mem_after_singleton]
  constructor
  · intro hleads
    exact absurd (hleads.family?_eq detection) h
  · intro hmem
    cases hmem

lemma after_union (step : Step) (values others : Set Value) :
    after step (values ∪ others) = after step values ∪ after step others := by
  ext value
  simp only [after, Set.mem_union, Set.mem_ofPred_eq, or_and_right, exists_or]

lemma observed_union (path : List Step) (values others : Set Value) :
    observed path (values ∪ others) = observed path values ∪ observed path others := by
  induction path generalizing values others with
  | nil => rfl
  | cons step path ih =>
    simp only [observed]
    rw [after_union, ih]

/-- What is observed is observed within one of the values. -/
lemma mem_observed_iff {path : List Step} {values : Set Value} {part : Value} :
    part ∈ observed path values ↔ ∃ value ∈ values, part ∈ observed path {value} := by
  induction path generalizing values with
  | nil =>
    simp only [observed, Set.mem_singleton_iff, exists_eq_right']
  | cons step path ih =>
    constructor
    · intro h
      obtain ⟨next, ⟨value, hvalue, hleads⟩, hpart⟩ := ih.mp h
      exact ⟨value, hvalue, ih.mpr ⟨next, mem_after_singleton.mpr hleads, hpart⟩⟩
    · rintro ⟨value, hvalue, h⟩
      obtain ⟨next, hnext, hpart⟩ := ih.mp h
      exact ih.mpr ⟨next, ⟨value, hvalue, mem_after_singleton.mp hnext⟩, hpart⟩

/-- What is observed within a value, behind a first step. -/
lemma mem_observed_cons {step : Step} {path : List Step} {value part : Value} :
    part ∈ observed (step :: path) {value} ↔
      ∃ next, Leads step value next ∧ part ∈ observed path {next} := by
  rw [observed, mem_observed_iff]
  simp only [mem_after_singleton]

lemma observed_empty (path : List Step) : observed path ∅ = ∅ := by
  induction path with
  | nil => rfl
  | cons step path ih =>
    have hafter : after step ∅ = ∅ := by
      ext value
      simp [after]
    rw [observed, hafter, ih]

/-! ### The alternative of a group of values -/

/-- The node describes the values of one family. -/
inductive Fits (detection : Detection) (group : Set Value) : Node → Prop
  | void (empty : group = ∅) : Fits detection group .void
  | boolean (some : group.Nonempty) : Fits detection group .boolean
  /-- All numbers are integers. -/
  | integer {min max : ℤ} (whole : ∀ value ∈ group, ¬ value.IsFraction)
      (least : IsLeast (wholes group) min) (greatest : IsGreatest (wholes group) max)
      (first : IsLeast (places group) (Double.placeOfInt min))
      (last : IsGreatest (places group) (Double.placeOfInt max)) :
      Fits detection group (.integer min max)
  | floating {min max : Double} {x y : ℤ} (fraction : ∃ value ∈ group, value.IsFraction)
      (lower : min.place? = some x) (upper : max.place? = some y)
      (first : IsLeast (places group) x) (last : IsGreatest (places group) y) :
      Fits detection group (.floating min max)
  | string (plain : ∃ text, .string text ∈ group ∧ ¬ detection.IsBinary text) :
      Fits detection group .string
  | binary (some : group.Nonempty) (binary : ∀ text, .string text ∈ group → detection.IsBinary text) :
      Fits detection group .binary
  | timestamp (some : group.Nonempty) : Fits detection group .timestamp
  | struct {fields : List (String × Node)} {shapes : ShapeSet} (some : group.Nonempty)
      (fields_iff : ∀ name, name ∈ Node.names fields ↔
        ∃ members, .object members ∈ group ∧ name ∈ Value.names members)
      (shapes_iff : ∀ shape, shape ∈ shapes.toList ↔
        ∃ members, .object members ∈ group ∧ shape = shapeSignature (Value.names members)) :
      Fits detection group (.struct fields shapes)
  | list {element : Node} (some : group.Nonempty) : Fits detection group (.list element)

/-- A node for numbers spans the places of their doubles. -/
lemma Fits.exists_spans {group : Set Value} {node : Node} (h : Fits detection group node)
    (hfamily : node.kind.family = .floating) : ∃ x y, Node.Spans node x y ∧
      IsLeast (places group) x ∧ IsGreatest (places group) y := by
  cases h with
  | integer _ _ _ first last => exact ⟨_, _, .integer _ _, first, last⟩
  | floating _ lower upper first last => exact ⟨_, _, .floating lower upper, first, last⟩
  | _ => simp [Node.kind, Kind.family] at hfamily

/-- Numbers of which one is a fraction are described by a floating-point node of their span. -/
lemma Fits.of_spans {group : Set Value} {min max : Double} {x y : ℤ}
    (h : Node.Spans (.floating min max) x y) (fraction : ∃ value ∈ group, value.IsFraction)
    (first : IsLeast (places group) x) (last : IsGreatest (places group) y) :
    Fits detection group (.floating min max) := by
  cases h with
  | floating lower upper => exact .floating fraction lower upper first last

lemma Fits.exists_fraction {group : Set Value} {min max : Double}
    (h : Fits detection group (.floating min max)) : ∃ value ∈ group, value.IsFraction := by
  cases h with
  | floating fraction => exact fraction

variable {group group' : Set Value} {a b : Node}

/-- Numbers: their spans are joined, and one fraction makes them floating-point numbers. -/
lemma Fits.merge_numbers (h : Fits detection group a) (h' : Fits detection group' b)
    (hab : Node.Alike a b) (hfamily : a.kind.family = .floating) :
    Fits detection (group ∪ group') (a.merge b) := by
  obtain ⟨x, y, hspan, first, last⟩ := h.exists_spans hfamily
  obtain ⟨z, w, hspan', first', last'⟩ := h'.exists_spans (hab.family_eq ▸ hfamily)
  have hmerge := hspan.merge hspan'
  have hfirst : IsLeast (places (group ∪ group')) (min x z) := by
    rw [places_union]
    exact first.union first'
  have hlast : IsGreatest (places (group ∪ group')) (max y w) := by
    rw [places_union]
    exact last.union last'
  cases hab with
  | integers =>
    cases h with
    | integer whole least greatest =>
      cases h' with
      | integer whole' least' greatest' =>
        have hwhole : ∀ value ∈ group ∪ group', ¬ value.IsFraction := by
          rintro value (hvalue | hvalue)
          · exact whole value hvalue
          · exact whole' value hvalue
        rw [Node.merge_integers] at hmerge ⊢
        cases hspan
        cases hspan'
        rw [← Double.placeOfInt_mono.map_min] at hfirst
        rw [← Double.placeOfInt_mono.map_max] at hlast
        refine .integer hwhole ?_ ?_ hfirst hlast
        · rw [wholes_union]
          exact least.union least'
        · rw [wholes_union]
          exact greatest.union greatest'
  | floatings =>
    rw [Node.merge_floatings] at hmerge ⊢
    obtain ⟨value, hvalue, hfraction⟩ := h.exists_fraction
    exact .of_spans hmerge ⟨value, Or.inl hvalue, hfraction⟩ hfirst hlast
  | floatingInteger =>
    rw [Node.merge_floating_integer] at hmerge ⊢
    obtain ⟨value, hvalue, hfraction⟩ := h.exists_fraction
    exact .of_spans hmerge ⟨value, Or.inl hvalue, hfraction⟩ hfirst hlast
  | integerFloating =>
    rw [Node.merge_integer_floating] at hmerge ⊢
    obtain ⟨value, hvalue, hfraction⟩ := h'.exists_fraction
    exact .of_spans hmerge ⟨value, Or.inr hvalue, hfraction⟩ hfirst hlast
  | _ => simp [Node.kind, Kind.family] at hfamily

/-- Within a family: what describes either group merges into what describes both. -/
lemma Fits.merge_alike (h : Fits detection group a) (h' : Fits detection group' b)
    (hab : Node.Alike a b) (ha : a.Canonical) (hb : b.Canonical) :
    Fits detection (group ∪ group') (a.merge b) := by
  cases hab with
  | void => exact absurd rfl ha.ne_void
  | null | unions => cases h
  | integers | floatings | integerFloating | floatingInteger =>
    exact h.merge_numbers h' (by constructor) rfl
  | boolean =>
    rw [Node.merge_eq_mergeLevel]
    cases h with
    | boolean some => exact .boolean some.inl
  | timestamp =>
    rw [Node.merge_eq_mergeLevel]
    cases h with
    | timestamp some => exact .timestamp some.inl
  | strings | stringBinary =>
    rw [Node.merge_eq_mergeLevel]
    cases h with
    | string plain =>
      obtain ⟨text, htext, hplain⟩ := plain
      exact .string ⟨text, Or.inl htext, hplain⟩
  | binaryString =>
    rw [Node.merge_eq_mergeLevel]
    cases h' with
    | string plain =>
      obtain ⟨text, htext, hplain⟩ := plain
      exact .string ⟨text, Or.inr htext, hplain⟩
  | binaries =>
    rw [Node.merge_eq_mergeLevel]
    cases h with
    | binary some binary =>
      cases h' with
      | binary _ binary' =>
        refine .binary some.inl ?_
        rintro text (htext | htext)
        · exact binary text htext
        · exact binary' text htext
  | lists =>
    rw [Node.merge_lists]
    cases h with
    | list some => exact .list some.inl
  | structs fields others shapes otherShapes =>
    rw [Node.merge_structs]
    cases h with
    | struct some fields_iff shapes_iff =>
      cases h' with
      | struct some' fields_iff' shapes_iff' =>
        refine .struct some.inl (fun name => ?_) fun shape => ?_
        · rw [Node.mem_names_merge ha hb, fields_iff, fields_iff']
          simp only [Set.mem_union, or_and_right, exists_or]
        · rw [ShapeSet.mem_union, shapes_iff, shapes_iff']
          simp only [Set.mem_union, or_and_right, exists_or]

/-- What describes either group merges into what describes both. -/
theorem Fits.merge (h : Fits detection group a) (h' : Fits detection group' b) (ha : a.IsSchema)
    (hb : b.IsSchema) (hfamily : a = .void ∨ b = .void ∨ a.kind.family = b.kind.family) :
    Fits detection (group ∪ group') (a.merge b) := by
  by_cases hvoid : a = .void
  · rw [hvoid] at h ⊢
    cases h with
    | void empty => rwa [empty, Set.empty_union, Node.merge_void_left]
  by_cases hvoid' : b = .void
  · rw [hvoid'] at h' ⊢
    cases h' with
    | void empty => rwa [empty, Set.union_empty, Node.merge_void_right]
  have hfamily : a.kind.family = b.kind.family :=
    (hfamily.resolve_left hvoid).resolve_left hvoid'
  exact h.merge_alike h' (Node.alike_of_family_eq hfamily) (ha.resolve_left hvoid)
    (hb.resolve_left hvoid')

/-! ### The alternatives of all values -/

/-- The alternatives of the node describe the values, family by family. -/
def Matches (detection : Detection) (values : Set Value) (node : Node) : Prop :=
  ∀ family, Fits detection (ofFamily detection family values) (Node.pick family node.alternatives)

/-- A merge matches the values of both sides. -/
theorem Matches.merge {values others : Set Value} (h : Matches detection values a)
    (h' : Matches detection others b) (ha : a.IsSchema) (hb : b.IsSchema) :
    Matches detection (values ∪ others) (a.merge b) := by
  intro family
  have hpick := Node.isSchema_pick ha family
  have hpick' := Node.isSchema_pick hb family
  have hfamily : Node.pick family a.alternatives = .void ∨
      Node.pick family b.alternatives = .void ∨
        (Node.pick family a.alternatives).kind.family =
          (Node.pick family b.alternatives).kind.family := by
    rcases Node.pick_eq_void_or_family_eq family a.alternatives with hvoid | hfamily
    · exact Or.inl hvoid
    rcases Node.pick_eq_void_or_family_eq family b.alternatives with hvoid | hfamily'
    · exact Or.inr (Or.inl hvoid)
    · exact Or.inr (Or.inr (hfamily.trans hfamily'.symm))
  rw [ofFamily_union]
  rcases Node.pick_merge ha hb family with hmerge | hmerge
  · rw [hmerge]
    exact (h family).merge (h' family) hpick hpick' hfamily
  · rw [hmerge, Set.union_comm]
    refine (h' family).merge (h family) hpick' hpick ?_
    rcases hfamily with hvoid | hvoid | hfamily
    · exact Or.inr (Or.inl hvoid)
    · exact Or.inl hvoid
    · exact Or.inr (Or.inr hfamily.symm)

end RecordSchema
