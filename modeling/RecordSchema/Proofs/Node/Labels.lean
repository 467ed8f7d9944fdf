import RecordSchema.Proofs.Node.Preservation

/-!
# What a node is labelled with

The texts of a node that come from records are the names of its fields and its shapes, at every
depth.  A merge has the labels of both sides and no others, for all nodes whatever
(`mem_labels_merge`): nothing that was observed gets lost, not even among alternatives that are
merged several times on one level.
-/

namespace RecordSchema

namespace Node

/-- A text of a node that comes from records. -/
inductive Label where
  | name (text : String)
  | shape (text : String)

mutual

/-- The names of the fields of a node and the shapes of its structs, at every depth. -/
def labels : Node → List Label
  | .struct fields shapes => shapes.toList.map Label.shape ++ labelsOfFields fields
  | .list element => element.labels
  | .union children => labelsOfAll children
  | _ => []

/-- The labels of fields and of their nodes. -/
def labelsOfFields : List (String × Node) → List Label
  | [] => []
  | (name, node) :: fields => .name name :: (node.labels ++ labelsOfFields fields)

/-- The labels of the nodes of a list. -/
def labelsOfAll : List Node → List Label
  | [] => []
  | node :: nodes => node.labels ++ labelsOfAll nodes

end

variable {label : Label}

/-! ### Labels of parts -/

/-- A field has the label: it is its name, or one of its node. -/
def FieldHas (label : Label) (field : String × Node) : Prop :=
  label = .name field.1 ∨ label ∈ field.2.labels

lemma mem_labelsOfFields {fields : List (String × Node)} :
    label ∈ labelsOfFields fields ↔ ∃ field ∈ fields, FieldHas label field := by
  induction fields with
  | nil => simp [labelsOfFields]
  | cons field fields ih =>
    rw [labelsOfFields, List.mem_cons, List.mem_append, ih, List.exists_mem_cons_iff, FieldHas,
      or_assoc]

lemma mem_labelsOfAll {nodes : List Node} :
    label ∈ labelsOfAll nodes ↔ ∃ node ∈ nodes, label ∈ node.labels := by
  induction nodes with
  | nil => simp [labelsOfAll]
  | cons node nodes ih => rw [labelsOfAll, List.mem_append, ih, List.exists_mem_cons_iff]

lemma mem_labels_struct {fields : List (String × Node)} {shapes : ShapeSet} :
    label ∈ (struct fields shapes).labels ↔
      (∃ shape ∈ shapes.toList, Label.shape shape = label) ∨
        ∃ field ∈ fields, FieldHas label field := by
  rw [labels, List.mem_append, List.mem_map, mem_labelsOfFields]

lemma mem_labels_union {children : List Node} :
    label ∈ (union children).labels ↔ ∃ child ∈ children, label ∈ child.labels := by
  rw [labels, mem_labelsOfAll]

/-! ### Combining parts -/

variable {bound : ℕ} {combine : Node → Node → Node}

/-- Below a joint size, a combination has the label if one of its sides has it. -/
def Gathers (label : Label) (bound : ℕ) (combine : Node → Node → Node) : Prop :=
  ∀ a b : Node, a.size + b.size < bound →
    (label ∈ (combine a b).labels ↔ label ∈ a.labels ∨ label ∈ b.labels)

namespace Gathers

lemma absorb (h : Gathers label bound combine) {node : Node} {children : List Node}
    (hlt : node.size + sizeOfAll children < bound) :
    (∃ child ∈ absorb combine node children, label ∈ child.labels) ↔
      (∃ child ∈ children, label ∈ child.labels) ∨ label ∈ node.labels := by
  induction children with
  | nil => simp [Node.absorb]
  | cons child children ih =>
    rw [sizeOfAll] at hlt
    rw [absorb_cons]
    split
    · rw [List.exists_mem_cons_iff, List.exists_mem_cons_iff, h child node (by omega)]
      exact or_right_comm
    · rw [List.exists_mem_cons_iff, List.exists_mem_cons_iff, ih (by omega), or_assoc]

lemma insertAlternative (h : Gathers label bound combine) {node : Node} {children : List Node}
    (hlt : sizeOfAll children + node.size < bound) :
    (∃ child ∈ insertAlternative combine children node, label ∈ child.labels) ↔
      (∃ child ∈ children, label ∈ child.labels) ∨ label ∈ node.labels := by
  rw [← h.absorb (by omega : node.size + sizeOfAll children < bound)]
  exact exists_congr fun child => and_congr_left' mem_sortBy

lemma foldl_insertAlternative (h : Gathers label bound combine) (hbound : Bounded bound combine)
    {others children : List Node} (hlt : sizeOfAll children + sizeOfAll others < bound) :
    (∃ child ∈ others.foldl (Node.insertAlternative combine) children, label ∈ child.labels) ↔
      (∃ child ∈ children, label ∈ child.labels) ∨ ∃ other ∈ others, label ∈ other.labels := by
  induction others generalizing children with
  | nil => simp
  | cons node others ih =>
    rw [sizeOfAll] at hlt
    have hstep := hbound.sizeOfAll_insertAlternative children node (by omega)
    rw [List.foldl_cons, ih (by omega), h.insertAlternative (by omega), List.exists_mem_cons_iff,
      or_assoc]

lemma absorbField (h : Gathers label bound combine) {name : String} {node : Node}
    {fields : List (String × Node)} (hlt : node.size + sizeOfFields fields < bound) :
    (∃ field ∈ absorbField combine name node fields, FieldHas label field) ↔
      (∃ field ∈ fields, FieldHas label field) ∨ FieldHas label (name, node) := by
  induction fields with
  | nil => simp [Node.absorbField]
  | cons field fields ih =>
    obtain ⟨other, old⟩ := field
    rw [sizeOfFields] at hlt
    rw [absorbField_cons]
    split
    · next hname =>
      have hfield : FieldHas label (other, combine old node) ↔
          FieldHas label (other, old) ∨ FieldHas label (name, node) := by
        rw [FieldHas, FieldHas, FieldHas, h old node (by omega), ← hname]
        exact or_or_distrib_left
      rw [List.exists_mem_cons_iff, List.exists_mem_cons_iff, hfield]
      exact or_right_comm
    · rw [List.exists_mem_cons_iff, List.exists_mem_cons_iff, ih (by omega), or_assoc]

lemma mergeFields (h : Gathers label bound combine) (hbound : Bounded bound combine)
    {right left : List (String × Node)} (hlt : sizeOfFields left + sizeOfFields right < bound) :
    (∃ field ∈ mergeFields combine left right, FieldHas label field) ↔
      (∃ field ∈ left, FieldHas label field) ∨ ∃ field ∈ right, FieldHas label field := by
  induction right generalizing left with
  | nil => simp
  | cons field right ih =>
    obtain ⟨name, node⟩ := field
    rw [sizeOfFields] at hlt
    have hstep := hbound.sizeOfFields_absorbField name node left (by omega)
    rw [mergeFields_cons]
    dsimp only
    rw [ih (by omega), h.absorbField (by omega), List.exists_mem_cons_iff,
      or_assoc]

lemma unite {a b : Node} (h : Gathers label (a.size + b.size) combine) :
    label ∈ (unite combine a b).labels ↔ label ∈ a.labels ∨ label ∈ b.labels := by
  by_cases hunion : a.kind = .union
  · obtain ⟨children, rfl⟩ := eq_union_of_kind hunion
    show label ∈ (union _).labels ↔ _
    rw [mem_labels_union, h.insertAlternative (by simp only [size]; omega), mem_labels_union]
  by_cases hunion' : b.kind = .union
  · obtain ⟨children, rfl⟩ := eq_union_of_kind hunion'
    rw [unite_union_right hunion, mem_labels_union,
      h.insertAlternative (by simp only [size]; omega), mem_labels_union]
    exact or_comm
  · rw [unite_of_kind_ne_union hunion hunion', mem_labels_union]
    have hmem (child : Node) : child ∈ sortAlternatives [a, b] ↔ child = a ∨ child = b := by
      rw [sortAlternatives, mem_sortBy]
      simp
    simp only [hmem, or_and_right, exists_or, exists_eq_left]

/-- Within a family, a level has the labels of both sides. -/
lemma mergeLevel_of_alike {a b : Node} (hab : Alike a b)
    (h : Gathers label (a.size + b.size) combine) (hbound : Bounded (a.size + b.size) combine) :
    label ∈ (mergeLevel combine a b).labels ↔ label ∈ a.labels ∨ label ∈ b.labels := by
  cases hab with
  | structs fields others shapes otherShapes =>
    show label ∈ (ofFields _ _).labels ↔ _
    have hlt : sizeOfFields fields + sizeOfFields others <
        (struct fields shapes).size + (struct others otherShapes).size := by
      simp only [size]
      omega
    have hfields := h.mergeFields hbound hlt
    have hsorted : (∃ field ∈ sortFields (Node.mergeFields combine fields others),
        FieldHas label field) ↔
          ∃ field ∈ Node.mergeFields combine fields others, FieldHas label field :=
      exists_congr fun field => and_congr_left' mem_sortBy
    rw [ofFields, mem_labels_struct, mem_labels_struct, mem_labels_struct, hsorted, hfields]
    simp only [ShapeSet.mem_union, or_and_right, exists_or]
    exact or_or_or_comm
  | lists element other =>
    show label ∈ (list _).labels ↔ _
    rw [labels, labels, labels]
    exact h element other (by simp only [size]; omega)
  | unions children others =>
    show label ∈ (union _).labels ↔ _
    rw [mem_labels_union, mem_labels_union, mem_labels_union]
    exact h.foldl_insertAlternative hbound (by simp only [size]; omega)
  | _ => simp [mergeLevel, kind, labels]

/-- A level has the labels of both sides. -/
lemma mergeLevel {a b : Node} (h : Gathers label (a.size + b.size) combine)
    (hbound : Bounded (a.size + b.size) combine) :
    label ∈ (mergeLevel combine a b).labels ↔ label ∈ a.labels ∨ label ∈ b.labels := by
  have hvoid : label ∉ Node.void.labels := List.not_mem_nil
  have hnull : label ∉ Node.null.labels := List.not_mem_nil
  -- an absent node and a null have no labels, and give way to the other side
  rcases eq_void_or_eq_null_or_isPresent a with rfl | rfl | hpresent
  · rw [mergeLevel_void_left, or_iff_right hvoid]
  · by_cases hb : b = .void
    · rw [hb, mergeLevel_void_right, or_iff_left hvoid]
    · rw [mergeLevel_null_left hb, or_iff_right hnull]
  rcases eq_void_or_eq_null_or_isPresent b with rfl | rfl | hpresent'
  · rw [mergeLevel_void_right, or_iff_left hvoid]
  · rw [mergeLevel_null_right hpresent.1, or_iff_left hnull]
  by_cases hfamily : a.kind.family = b.kind.family
  · exact mergeLevel_of_alike (alike_of_family_eq hfamily) h hbound
  · rw [mergeLevel_of_family_ne hpresent hpresent' hfamily]
    exact h.unite

end Gathers

/-! ### Merging -/

lemma bounded_merge : Bounded bound merge where
  size_le := fun a b hlt => (bounded_mergeWithin (a.size + b.size)).size_le a b hlt
  size_le_of_family := fun a b hlt hfamily =>
    (bounded_mergeWithin (a.size + b.size)).size_le_of_family a b hlt hfamily

/-- A merge has the labels of both sides. -/
theorem mem_labels_merge (a b : Node) :
    label ∈ (a.merge b).labels ↔ label ∈ a.labels ∨ label ∈ b.labels := by
  -- the parts that a level merges are smaller together than its sides
  induction hsize : a.size + b.size using Nat.strong_induction_on generalizing a b with
  | _ size ih =>
    subst hsize
    rw [merge_eq_mergeLevel]
    exact Gathers.mergeLevel (fun x y hlt => ih _ hlt x y rfl) bounded_merge

/-- The merge of a list of nodes has the labels of what it starts from and of the nodes. -/
lemma mem_labels_foldl_merge (start : Node) (nodes : List Node) :
    label ∈ (nodes.foldl merge start).labels ↔
      label ∈ start.labels ∨ ∃ node ∈ nodes, label ∈ node.labels := by
  induction nodes generalizing start with
  | nil => simp
  | cons node nodes ih =>
    rw [List.foldl_cons, ih, mem_labels_merge, List.exists_mem_cons_iff, or_assoc]

end Node

end RecordSchema
