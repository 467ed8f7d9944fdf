import RecordSchema.Proofs.Node.ZeroSigns
import RecordSchema.Proofs.Node.Parts

/-!
# Schemas without signed zeros

Dropping the signs of zeros keeps the canonical form, and a merge of nodes without signed zeros
has none.  The parts of a schema without signed zeros, its alternatives, its fields and its
element, are such schemas again, and its floating-point bounds are the doubles of their places.
-/

namespace RecordSchema

namespace Node

lemma Alternatives.map {f : Node → Node} (hf : ∀ node, (f node).kind = node.kind)
    {children : List Node} (h : Alternatives children) : Alternatives (children.map f) := by
  refine ⟨List.pairwise_map.mpr ?_, List.pairwise_map.mpr ?_, ?_⟩
  · simpa only [hf] using h.increasing
  · simpa only [hf] using h.apart
  · intro other hother
    obtain ⟨child, hchild, rfl⟩ := List.mem_map.mp hother
    exact (h.alternative child hchild).of_family_eq (by rw [hf])

lemma CanonicalWith.dropZeroSigns {Seen : ShapeSet → Prop} {node : Node}
    (h : CanonicalWith Seen node) : CanonicalWith Seen node.dropZeroSigns := by
  induction h with
  | null => exact .null
  | boolean => exact .boolean
  | integer lower ordered upper => exact .integer lower ordered upper
  | floating ordered => exact .floating ordered.dropZeroSign
  | string => exact .string
  | binary => exact .binary
  | timestamp => exact .timestamp
  | struct increasing seen _ ih =>
    rw [Node.dropZeroSigns, dropZeroSignsOfFields_eq_map]
    refine .struct (List.pairwise_map.mpr increasing) seen fun field hfield => ?_
    obtain ⟨old, hold, rfl⟩ := List.mem_map.mp hfield
    exact ih old hold
  | list _ ih => exact .list ih
  | union two alternatives _ ih =>
    rw [Node.dropZeroSigns, dropZeroSignsOfAll_eq_map]
    refine .union (by simpa using two) (alternatives.map kind_dropZeroSigns) fun child hchild => ?_
    obtain ⟨old, hold, rfl⟩ := List.mem_map.mp hchild
    exact ih old hold

lemma IsSchema.dropZeroSigns {node : Node} (h : node.IsSchema) : node.dropZeroSigns.IsSchema := by
  rcases h with rfl | h
  · exact Or.inl rfl
  · exact Or.inr h.dropZeroSigns

lemma IsSchema.merge {a b : Node} (ha : a.IsSchema) (hb : b.IsSchema) : (a.merge b).IsSchema := by
  rcases ha with rfl | ha
  · rwa [merge_void_left]
  rcases hb with rfl | hb
  · rw [merge_void_right]
    exact Or.inr ha
  · exact Or.inr (ha.merge hb)

lemma isSchema_foldl_merge {nodes : List Node} {start : Node} (hstart : start.IsSchema)
    (hnodes : ∀ node ∈ nodes, node.IsSchema) : (nodes.foldl merge start).IsSchema :=
  List.foldlRecOn nodes merge hstart fun _ ha node hnode => ha.merge (hnodes node hnode)

/-- A schema in which no zero has a sign. -/
structure Plain (node : Node) : Prop where
  isSchema : node.IsSchema
  unsigned : node.dropZeroSigns = node

namespace Plain

lemma void : Plain .void := ⟨Or.inl rfl, rfl⟩

lemma of_isSchema {node : Node} (h : node.IsSchema) : Plain node.dropZeroSigns :=
  ⟨h.dropZeroSigns, dropZeroSigns_dropZeroSigns node⟩

lemma canonical {node : Node} (h : Plain node) (hvoid : node ≠ .void) : node.Canonical :=
  h.isSchema.resolve_left hvoid

lemma merge {a b : Node} (ha : Plain a) (hb : Plain b) : Plain (a.merge b) :=
  ⟨ha.isSchema.merge hb.isSchema, by rw [dropZeroSigns_merge, ha.unsigned, hb.unsigned]⟩

lemma floating {min max : Double} (h : Plain (.floating min max)) :
    ∃ x y, min = .ofPlace x ∧ max = .ofPlace y := by
  have hunsigned := h.unsigned
  simp only [dropZeroSigns, floating.injEq] at hunsigned
  cases h.canonical (by simp) with
  | floating ordered =>
    obtain ⟨x, y, hx, hy, -⟩ := ordered
    exact ⟨x, y, by rw [← hunsigned.1, Double.dropZeroSign_of_place? hx],
      by rw [← hunsigned.2, Double.dropZeroSign_of_place? hy]⟩

lemma element {element : Node} (h : Plain (.list element)) : Plain element := by
  have hunsigned := h.unsigned
  simp only [dropZeroSigns, list.injEq] at hunsigned
  cases h.canonical (by simp) with
  | list canonical => exact ⟨Or.inr canonical, hunsigned⟩

lemma of_mem_fields {fields : List (String × Node)} {shapes : ShapeSet}
    (h : Plain (.struct fields shapes)) {field : String × Node} (hfield : field ∈ fields) :
    Plain field.2 := by
  have hunsigned := h.unsigned
  simp only [dropZeroSigns, dropZeroSignsOfFields_eq_map, struct.injEq, and_true] at hunsigned
  cases h.canonical (by simp) with
  | struct _ _ canonical =>
    refine ⟨Or.inr (canonical field hfield), ?_⟩
    have := List.map_inj_left.mp (hunsigned.trans (List.map_id fields).symm) field hfield
    exact congrArg Prod.snd this

lemma fieldNode {fields : List (String × Node)} {shapes : ShapeSet}
    (h : Plain (.struct fields shapes)) (name : String) : Plain (fieldNode name fields) := by
  rcases fieldNode_eq_void_or_mem name fields with hvoid | hmem
  · rw [hvoid]
    exact Plain.void
  · exact h.of_mem_fields hmem

lemma of_mem_alternatives {node child : Node} (h : Plain node)
    (hchild : child ∈ node.alternatives) : Plain child := by
  have hvoid : node ≠ .void := by
    rintro rfl
    cases hchild
  refine ⟨Or.inr ((h.canonical hvoid).of_mem_alternatives hchild), ?_⟩
  have hunsigned := h.unsigned
  cases node with
  | void | null => cases hchild
  | union children =>
    simp only [dropZeroSigns, dropZeroSignsOfAll_eq_map, union.injEq] at hunsigned
    exact List.map_inj_left.mp (hunsigned.trans (List.map_id children).symm) child hchild
  | _ =>
    rw [List.mem_singleton.mp hchild]
    exact hunsigned

lemma pick {node : Node} (h : Plain node) (family : Kind) :
    Plain (pick family node.alternatives) := by
  rcases pick_eq_void_or_mem family node.alternatives with hvoid | ⟨hmem, -⟩
  · rw [hvoid]
    exact Plain.void
  · exact h.of_mem_alternatives hmem

end Plain

end Node

end RecordSchema
