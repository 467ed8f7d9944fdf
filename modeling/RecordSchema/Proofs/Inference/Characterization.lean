import RecordSchema.Proofs.Inference.Explanation

/-!
# What a schema says about the records

The schema of a list of records shows what was observed and nothing else, at every path.
`Describes` says so without merging: a node has an alternative for booleans if a boolean was
observed, its integers range from the least to the greatest one observed, its struct has the fields
and the shapes of the objects observed, and so on.  The main statement is `infer_describes`.
-/

namespace RecordSchema

variable {detection : Detection}

/-! ### What the alternatives say -/

/-- The alternatives of the node are exactly what the values show: at most one for each family of
kinds, in the order of their kinds, and each as stated. -/
structure Describes (detection : Detection) (values : Set Value) (node : Node) : Prop where
  alternatives : Node.Alternatives node.alternatives
  boolean_iff : .boolean ∈ node.alternatives ↔ ∃ value, .boolean value ∈ values
  /-- There is a range of integers if all numbers are integers. -/
  integer_iff : (∃ min max, .integer min max ∈ node.alternatives) ↔
    (wholes values).Nonempty ∧ ∀ value ∈ values, ¬ value.IsFraction
  integer_bounds : ∀ min max, .integer min max ∈ node.alternatives →
    IsLeast (wholes values) min ∧ IsGreatest (wholes values) max
  floating_iff : (∃ min max, .floating min max ∈ node.alternatives) ↔
    ∃ value ∈ values, value.IsFraction
  /-- Floating-point bounds are at the first and the last place of the doubles of all numbers, so
  they are the least and the greatest one, up to the sign of a zero. -/
  floating_bounds : ∀ min max, .floating min max ∈ node.alternatives →
    ∃ first last, min.place? = some first ∧ max.place? = some last ∧
      IsLeast (places values) first ∧ IsGreatest (places values) last
  string_iff : .string ∈ node.alternatives ↔ ∃ text, .string text ∈ values ∧
    ¬ detection.IsTimestamp text ∧ ¬ detection.IsBinary text
  binary_iff : .binary ∈ node.alternatives ↔
    (∃ text, .string text ∈ values ∧ ¬ detection.IsTimestamp text ∧ detection.IsBinary text) ∧
      ¬ ∃ text, .string text ∈ values ∧ ¬ detection.IsTimestamp text ∧ ¬ detection.IsBinary text
  timestamp_iff : .timestamp ∈ node.alternatives ↔
    ∃ text, .string text ∈ values ∧ detection.IsTimestamp text
  struct_iff : (∃ fields shapes, .struct fields shapes ∈ node.alternatives) ↔
    ∃ members, .object members ∈ values
  /-- A struct has the names of all objects, in order, and remembers their shapes. -/
  struct_parts : ∀ fields shapes, .struct fields shapes ∈ node.alternatives →
    (fields.Pairwise fun f g => f.1 < g.1) ∧
      (∀ name, name ∈ Node.names fields ↔
        ∃ members, .object members ∈ values ∧ name ∈ Value.names members) ∧
      ∀ shape, shape ∈ shapes.toList ↔
        ∃ members, .object members ∈ values ∧ shape = shapeSignature (Value.names members)
  list_iff : (∃ element, .list element ∈ node.alternatives) ↔ ∃ items, .array items ∈ values

namespace Node

lemma IsSchema.alternatives {node : Node} (h : node.IsSchema) : Alternatives node.alternatives := by
  rcases h with rfl | h
  · exact ⟨.nil, .nil, by simp [Node.alternatives]⟩
  · exact h.alternatives

lemma IsSchema.increasing_of_mem {node : Node} (h : node.IsSchema) {fields : List (String × Node)}
    {shapes : ShapeSet} (hmem : .struct fields shapes ∈ node.alternatives) :
    fields.Pairwise fun f g => f.1 < g.1 := by
  rcases h with rfl | h
  · cases hmem
  · cases h.of_mem_alternatives hmem with
    | struct increasing _ _ => exact increasing

end Node

section Matches

variable {values : Set Value} {node : Node}

/-- An alternative fits the values of its family. -/
lemma Matches.fits_of_mem (h : Matches detection values node) (hnode : node.IsSchema)
    {child : Node} (hchild : child ∈ node.alternatives) :
    Fits detection (ofFamily detection child.kind.family values) child := by
  have hfits := h child.kind.family
  rwa [Node.pick_of_mem hnode.nodup_families hchild] at hfits

/-- A value has an alternative of its family. -/
lemma Matches.exists_of_mem (h : Matches detection values node) {value : Value}
    (hvalue : value ∈ values) {family : Kind} (hfamily : value.family? detection = some family) :
    ∃ child ∈ node.alternatives, child.kind.family = family ∧
      Fits detection (ofFamily detection family values) child := by
  have hfits := h family
  rcases Node.pick_eq_void_or_mem family node.alternatives with hvoid | ⟨hmem, hkind⟩
  · rw [hvoid] at hfits
    cases hfits with
    | void empty =>
      have hgroup : value ∈ ofFamily detection family values := ⟨hvalue, hfamily⟩
      rw [empty] at hgroup
      cases hgroup
  · exact ⟨_, hmem, hkind, hfits⟩

lemma Matches.boolean_iff (h : Matches detection values node) (hnode : node.IsSchema) :
    .boolean ∈ node.alternatives ↔ ∃ value, .boolean value ∈ values := by
  constructor
  · intro hmem
    cases h.fits_of_mem hnode hmem with
    | boolean some =>
      obtain ⟨value, hvalue, hfamily⟩ := some
      obtain ⟨b, rfl⟩ := Value.family?_eq_boolean_iff.mp hfamily
      exact ⟨b, hvalue⟩
  · rintro ⟨b, hvalue⟩
    obtain ⟨child, hchild, hkind, -⟩ := h.exists_of_mem hvalue rfl
    cases child with
    | boolean => exact hchild
    | _ => simp [Node.kind, Kind.family] at hkind

lemma Matches.list_iff (h : Matches detection values node) (hnode : node.IsSchema) :
    (∃ element, .list element ∈ node.alternatives) ↔ ∃ items, .array items ∈ values := by
  constructor
  · rintro ⟨element, hmem⟩
    cases h.fits_of_mem hnode hmem with
    | list some =>
      obtain ⟨value, hvalue, hfamily⟩ := some
      obtain ⟨items, rfl⟩ := Value.family?_eq_list_iff.mp hfamily
      exact ⟨items, hvalue⟩
  · rintro ⟨items, hvalue⟩
    obtain ⟨child, hchild, hkind, -⟩ := h.exists_of_mem hvalue rfl
    cases child with
    | list element => exact ⟨element, hchild⟩
    | _ => simp [Node.kind, Kind.family] at hkind

/-! ### Numbers -/

/-- Numbers have an alternative for numbers. -/
lemma Matches.exists_number (h : Matches detection values node) {value : Value}
    (hvalue : value ∈ values) (hfamily : value.family? detection = some .floating) :
    (∃ min max, .integer min max ∈ node.alternatives) ∨
      ∃ min max, .floating min max ∈ node.alternatives := by
  obtain ⟨child, hchild, hkind, -⟩ := h.exists_of_mem hvalue hfamily
  cases child with
  | integer min max => exact Or.inl ⟨min, max, hchild⟩
  | floating min max => exact Or.inr ⟨min, max, hchild⟩
  | _ => simp [Node.kind, Kind.family] at hkind

lemma Matches.of_integer_mem (h : Matches detection values node) (hnode : node.IsSchema)
    {min max : ℤ} (hmem : .integer min max ∈ node.alternatives) :
    (∀ value ∈ values, ¬ value.IsFraction) ∧
      IsLeast (wholes values) min ∧ IsGreatest (wholes values) max := by
  cases h.fits_of_mem hnode hmem with
  | integer whole least greatest first last =>
    have hwholes : wholes (ofFamily detection .floating values) = wholes values := wholes_ofFamily
    refine ⟨fun value hvalue hfraction => ?_, hwholes ▸ least, hwholes ▸ greatest⟩
    obtain ⟨x, hdouble⟩ := hfraction.2
    exact whole value ⟨hvalue, value.family?_eq_of_double? hdouble⟩ hfraction

lemma Matches.of_floating_mem (h : Matches detection values node) (hnode : node.IsSchema)
    {min max : Double} (hmem : .floating min max ∈ node.alternatives) :
    (∃ value ∈ values, value.IsFraction) ∧ ∃ first last, min.place? = some first ∧
      max.place? = some last ∧ IsLeast (places values) first ∧ IsGreatest (places values) last := by
  cases h.fits_of_mem hnode hmem with
  | floating fraction lower upper first last =>
    have hplaces : places (ofFamily detection .floating values) = places values := places_ofFamily
    obtain ⟨value, hvalue, hfraction⟩ := fraction
    exact ⟨⟨value, hvalue.1, hfraction⟩, _, _, lower, upper, hplaces ▸ first, hplaces ▸ last⟩

lemma Matches.integer_iff (h : Matches detection values node) (hnode : node.IsSchema) :
    (∃ min max, .integer min max ∈ node.alternatives) ↔
      (wholes values).Nonempty ∧ ∀ value ∈ values, ¬ value.IsFraction := by
  constructor
  · rintro ⟨min, max, hmem⟩
    obtain ⟨hwhole, hleast, -⟩ := h.of_integer_mem hnode hmem
    exact ⟨hleast.nonempty, hwhole⟩
  · rintro ⟨⟨n, value, hvalue, hn⟩, hwhole⟩
    rcases h.exists_number hvalue (value.family?_eq_of_whole? hn) with hinteger | ⟨min, max, hmem⟩
    · exact hinteger
    · obtain ⟨⟨other, hother, hfraction⟩, -⟩ := h.of_floating_mem hnode hmem
      exact absurd hfraction (hwhole other hother)

lemma Matches.floating_iff (h : Matches detection values node) (hnode : node.IsSchema) :
    (∃ min max, .floating min max ∈ node.alternatives) ↔ ∃ value ∈ values, value.IsFraction := by
  constructor
  · rintro ⟨min, max, hmem⟩
    exact (h.of_floating_mem hnode hmem).1
  · rintro ⟨value, hvalue, hfraction⟩
    obtain ⟨x, hdouble⟩ := hfraction.2
    rcases h.exists_number hvalue (value.family?_eq_of_double? hdouble) with
      ⟨min, max, hmem⟩ | hfloating
    · exact absurd hfraction ((h.of_integer_mem hnode hmem).1 value hvalue)
    · exact hfloating

/-! ### Strings -/

/-- Strings that are no timestamps have an alternative for strings. -/
lemma Matches.exists_string (h : Matches detection values node) {text : String}
    (hvalue : .string text ∈ values) (htext : ¬ detection.IsTimestamp text) :
    .string ∈ node.alternatives ∨ .binary ∈ node.alternatives := by
  obtain ⟨child, hchild, hkind, -⟩ := h.exists_of_mem hvalue (Value.family?_eq_string_iff.mpr
    ⟨text, rfl, htext⟩)
  cases child with
  | string => exact Or.inl hchild
  | binary => exact Or.inr hchild
  | _ => simp [Node.kind, Kind.family] at hkind

lemma Matches.of_string_mem (h : Matches detection values node) (hnode : node.IsSchema)
    (hmem : .string ∈ node.alternatives) : ∃ text, .string text ∈ values ∧
      ¬ detection.IsTimestamp text ∧ ¬ detection.IsBinary text := by
  cases h.fits_of_mem hnode hmem with
  | string plain =>
    obtain ⟨text, ⟨hvalue, hfamily⟩, hplain⟩ := plain
    obtain ⟨other, hother, htext⟩ := Value.family?_eq_string_iff.mp hfamily
    cases hother
    exact ⟨text, hvalue, htext, hplain⟩

lemma Matches.of_binary_mem (h : Matches detection values node) (hnode : node.IsSchema)
    (hmem : .binary ∈ node.alternatives) :
    (∃ text, .string text ∈ values ∧ ¬ detection.IsTimestamp text ∧ detection.IsBinary text) ∧
      ¬ ∃ text, .string text ∈ values ∧ ¬ detection.IsTimestamp text ∧
        ¬ detection.IsBinary text := by
  cases h.fits_of_mem hnode hmem with
  | binary some binary =>
    constructor
    · obtain ⟨value, hvalue, hfamily⟩ := some
      obtain ⟨text, rfl, htext⟩ := Value.family?_eq_string_iff.mp hfamily
      exact ⟨text, hvalue, htext, binary text ⟨hvalue, hfamily⟩⟩
    · rintro ⟨text, hvalue, htext, hplain⟩
      exact hplain (binary text ⟨hvalue, Value.family?_eq_string_iff.mpr ⟨text, rfl, htext⟩⟩)

lemma Matches.string_iff (h : Matches detection values node) (hnode : node.IsSchema) :
    .string ∈ node.alternatives ↔ ∃ text, .string text ∈ values ∧
      ¬ detection.IsTimestamp text ∧ ¬ detection.IsBinary text := by
  constructor
  · exact h.of_string_mem hnode
  · rintro ⟨text, hvalue, htext, hplain⟩
    rcases h.exists_string hvalue htext with hmem | hmem
    · exact hmem
    · exact absurd ⟨text, hvalue, htext, hplain⟩ (h.of_binary_mem hnode hmem).2

lemma Matches.binary_iff (h : Matches detection values node) (hnode : node.IsSchema) :
    .binary ∈ node.alternatives ↔
      (∃ text, .string text ∈ values ∧ ¬ detection.IsTimestamp text ∧ detection.IsBinary text) ∧
        ¬ ∃ text, .string text ∈ values ∧ ¬ detection.IsTimestamp text ∧
          ¬ detection.IsBinary text := by
  constructor
  · exact h.of_binary_mem hnode
  · rintro ⟨⟨text, hvalue, htext, -⟩, hplain⟩
    rcases h.exists_string hvalue htext with hmem | hmem
    · exact absurd (h.of_string_mem hnode hmem) hplain
    · exact hmem

lemma Matches.timestamp_iff (h : Matches detection values node) (hnode : node.IsSchema) :
    .timestamp ∈ node.alternatives ↔
      ∃ text, .string text ∈ values ∧ detection.IsTimestamp text := by
  constructor
  · intro hmem
    cases h.fits_of_mem hnode hmem with
    | timestamp some =>
      obtain ⟨value, hvalue, hfamily⟩ := some
      obtain ⟨text, rfl, htext⟩ := Value.family?_eq_timestamp_iff.mp hfamily
      exact ⟨text, hvalue, htext⟩
  · rintro ⟨text, hvalue, htext⟩
    obtain ⟨child, hchild, hkind, -⟩ := h.exists_of_mem hvalue
      (Value.family?_eq_timestamp_iff.mpr ⟨text, rfl, htext⟩)
    cases child with
    | timestamp => exact hchild
    | _ => simp [Node.kind, Kind.family] at hkind

/-! ### Objects -/

lemma Matches.struct_iff (h : Matches detection values node) (hnode : node.IsSchema) :
    (∃ fields shapes, .struct fields shapes ∈ node.alternatives) ↔
      ∃ members, .object members ∈ values := by
  constructor
  · rintro ⟨fields, shapes, hmem⟩
    cases h.fits_of_mem hnode hmem with
    | struct some _ _ =>
      obtain ⟨value, hvalue, hfamily⟩ := some
      obtain ⟨members, rfl⟩ := Value.family?_eq_struct_iff.mp hfamily
      exact ⟨members, hvalue⟩
  · rintro ⟨members, hvalue⟩
    obtain ⟨child, hchild, hkind, -⟩ := h.exists_of_mem hvalue rfl
    cases child with
    | struct fields shapes => exact ⟨fields, shapes, hchild⟩
    | _ => simp [Node.kind, Kind.family] at hkind

lemma Matches.struct_parts (h : Matches detection values node) (hnode : node.IsSchema)
    {fields : List (String × Node)} {shapes : ShapeSet}
    (hmem : .struct fields shapes ∈ node.alternatives) :
    (∀ name, name ∈ Node.names fields ↔
        ∃ members, .object members ∈ values ∧ name ∈ Value.names members) ∧
      ∀ shape, shape ∈ shapes.toList ↔
        ∃ members, .object members ∈ values ∧ shape = shapeSignature (Value.names members) := by
  have hobject : ∀ members, .object members ∈ ofFamily detection .struct values ↔
      .object members ∈ values := fun members => and_iff_left rfl
  cases h.fits_of_mem hnode hmem with
  | struct _ fields_iff shapes_iff =>
    constructor
    · intro name
      rw [fields_iff]
      exact exists_congr fun members => and_congr_left' (hobject members)
    · intro shape
      rw [shapes_iff]
      exact exists_congr fun members => and_congr_left' (hobject members)

end Matches

/-! ### What a schema says -/

/-- The alternatives of a schema that matches values are what the values show. -/
lemma Matches.describes {values : Set Value} {node : Node} (h : Matches detection values node)
    (hnode : node.IsSchema) : Describes detection values node where
  alternatives := hnode.alternatives
  boolean_iff := h.boolean_iff hnode
  integer_iff := h.integer_iff hnode
  integer_bounds := fun _ _ hmem => (h.of_integer_mem hnode hmem).2
  floating_iff := h.floating_iff hnode
  floating_bounds := fun _ _ hmem => (h.of_floating_mem hnode hmem).2
  string_iff := h.string_iff hnode
  binary_iff := h.binary_iff hnode
  timestamp_iff := h.timestamp_iff hnode
  struct_iff := h.struct_iff hnode
  struct_parts := fun _ _ hmem => ⟨hnode.increasing_of_mem hmem, h.struct_parts hnode hmem⟩
  list_iff := h.list_iff hnode

/-- A schema shows at every path what was observed there, and nothing else. -/
theorem infer_describes {records : List Value} (hclean : ∀ record ∈ records, record.Clean)
    {node : Node} (h : Node.infer detection records = .ok node) (path : List Step) :
    Describes detection (observed path {record | record ∈ records}) (node.descend path) :=
  (explains_of_infer hclean h path).describes
    (Node.isSchema_descend (Node.isSchema_of_infer hclean h) path)

/-- The elements of the arrays of two records: a fraction, an integer that no double holds, and a
null. -/
theorem infer_describes_elements : ∃ node,
    Node.infer {} [.object [("v", .array [.integer 1, .decimal (.finite false 25 (-1)), .null])],
      .object [("t", .string "ff"), ("v", .array [.integer 9007199254740993])]] = .ok node ∧
    Describes {} (observed [.field "v", .element] {record | record ∈
      [.object [("v", .array [.integer 1, .decimal (.finite false 25 (-1)), .null])],
        .object [("t", .string "ff"), ("v", .array [.integer 9007199254740993])]]})
      (node.descend [.field "v", .element]) := by
  obtain ⟨node, hnode⟩ : ∃ node, Node.infer {}
      [.object [("v", .array [.integer 1, .decimal (.finite false 25 (-1)), .null])],
        .object [("t", .string "ff"), ("v", .array [.integer 9007199254740993])]] = .ok node :=
    ⟨_, rfl⟩
  exact ⟨node, hnode, infer_describes (by decide) hnode [.field "v", .element]⟩

end RecordSchema
