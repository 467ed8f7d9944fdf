import RecordSchema.Proofs.Number.Place
import RecordSchema.Proofs.Node.Family
import RecordSchema.Proofs.Sorted

/-!
# Nodes without the signs of zeros

Which of two zeros a bound keeps depends on the order in which they are met, and nothing else
does.  `dropZeroSigns` forgets these signs and nothing more, so two nodes with the same image are
the same node for node: kinds, bounds, the order of fields and of alternatives, and shapes.

Merging never looks at the sign of a zero: `dropZeroSigns_merge` says that the signs may be
dropped before or after.
-/

namespace RecordSchema

namespace Node

mutual

/-- The node with every bound that is zero without its sign. -/
def dropZeroSigns : Node → Node
  | .floating min max => .floating min.dropZeroSign max.dropZeroSign
  | .struct fields shapes => .struct (dropZeroSignsOfFields fields) shapes
  | .list element => .list element.dropZeroSigns
  | .union children => .union (dropZeroSignsOfAll children)
  | .void => .void
  | .null => .null
  | .boolean => .boolean
  | .integer min max => .integer min max
  | .string => .string
  | .binary => .binary
  | .timestamp => .timestamp

/-- The same for the node of each field. -/
def dropZeroSignsOfFields : List (String × Node) → List (String × Node)
  | [] => []
  | (name, node) :: fields => (name, node.dropZeroSigns) :: dropZeroSignsOfFields fields

/-- The same for each node of a list. -/
def dropZeroSignsOfAll : List Node → List Node
  | [] => []
  | node :: nodes => node.dropZeroSigns :: dropZeroSignsOfAll nodes

end

@[simp] lemma dropZeroSignsOfFields_eq_map (fields : List (String × Node)) :
    dropZeroSignsOfFields fields = fields.map fun field => (field.1, field.2.dropZeroSigns) := by
  induction fields with
  | nil => rfl
  | cons field fields ih => rw [dropZeroSignsOfFields, ih, List.map_cons]

@[simp] lemma dropZeroSignsOfAll_eq_map (nodes : List Node) :
    dropZeroSignsOfAll nodes = nodes.map dropZeroSigns := by
  induction nodes with
  | nil => rfl
  | cons node nodes ih => rw [dropZeroSignsOfAll, ih, List.map_cons]

@[simp] lemma kind_dropZeroSigns (node : Node) : node.dropZeroSigns.kind = node.kind := by
  cases node <;> rfl

@[simp] lemma dropZeroSigns_eq_void {node : Node} : node.dropZeroSigns = .void ↔ node = .void := by
  cases node <;> simp [dropZeroSigns]

@[simp] lemma dropZeroSigns_eq_null {node : Node} : node.dropZeroSigns = .null ↔ node = .null := by
  cases node <;> simp [dropZeroSigns]

@[simp] lemma isPresent_dropZeroSigns {node : Node} :
    node.dropZeroSigns.IsPresent ↔ node.IsPresent := by
  simp [IsPresent]

@[simp] lemma dropZeroSigns_dropZeroSigns (node : Node) :
    node.dropZeroSigns.dropZeroSigns = node.dropZeroSigns := by
  induction node using induction with
  | struct fields shapes ih => simpa [dropZeroSigns] using fun name node h => ih (name, node) h
  | list element ih => simp [dropZeroSigns, ih]
  | union children ih => simpa [dropZeroSigns] using ih
  | _ => simp [dropZeroSigns]

lemma sizeOfFields_map (f : Node → Node) (fields : List (String × Node))
    (h : ∀ field ∈ fields, (f field.2).size = field.2.size) :
    sizeOfFields (fields.map fun field => (field.1, f field.2)) = sizeOfFields fields := by
  induction fields with
  | nil => rfl
  | cons field fields ih =>
    simp only [List.map_cons, sizeOfFields, h field List.mem_cons_self,
      ih fun g hg => h g (List.mem_cons_of_mem _ hg)]

lemma sizeOfAll_map (f : Node → Node) (nodes : List Node)
    (h : ∀ node ∈ nodes, (f node).size = node.size) :
    sizeOfAll (nodes.map f) = sizeOfAll nodes := by
  induction nodes with
  | nil => rfl
  | cons node nodes ih =>
    simp only [List.map_cons, sizeOfAll, h node List.mem_cons_self,
      ih fun other hother => h other (List.mem_cons_of_mem _ hother)]

@[simp] lemma size_dropZeroSigns (node : Node) : node.dropZeroSigns.size = node.size := by
  induction node using induction with
  | struct fields shapes ih =>
    simp only [dropZeroSigns, dropZeroSignsOfFields_eq_map, size, sizeOfFields_map _ _ ih]
  | list element ih => simp only [dropZeroSigns, size, ih]
  | union children ih =>
    simp only [dropZeroSigns, dropZeroSignsOfAll_eq_map, size, sizeOfAll_map _ _ ih]
  | _ => simp only [dropZeroSigns, size]

/-! ### Sorting -/

lemma map_sortFields (f : Node → Node) (fields : List (String × Node)) :
    (sortFields fields).map (fun field => (field.1, f field.2)) =
      sortFields (fields.map fun field => (field.1, f field.2)) := by
  refine map_sortBy (fun field : String × Node => (field.1, f field.2)) ?_ fields
  exact fun _ _ => rfl

lemma map_sortAlternatives (f : Node → Node) (h : ∀ node, (f node).kind = node.kind)
    (children : List Node) :
    (sortAlternatives children).map f = sortAlternatives (children.map f) :=
  map_sortBy f (fun x y => by rw [h, h]) children

/-! ### Merging -/

variable {combine : Node → Node → Node}

/-- A way to combine nodes that never looks at the sign of a zero. -/
def IgnoresZeroSigns (combine : Node → Node → Node) : Prop :=
  ∀ a b, (combine a b).dropZeroSigns = combine a.dropZeroSigns b.dropZeroSigns

namespace IgnoresZeroSigns

variable (h : IgnoresZeroSigns combine)
include h

lemma map_absorb (node : Node) (children : List Node) :
    (absorb combine node children).map dropZeroSigns =
      absorb combine node.dropZeroSigns (children.map dropZeroSigns) := by
  induction children with
  | nil => rfl
  | cons child children ih =>
    simp only [absorb_cons, List.map_cons, kind_dropZeroSigns]
    split
    · rw [List.map_cons, h]
    · rw [List.map_cons, ih]

lemma map_insertAlternative (children : List Node) (node : Node) :
    (insertAlternative combine children node).map dropZeroSigns =
      insertAlternative combine (children.map dropZeroSigns) node.dropZeroSigns := by
  rw [insertAlternative, map_sortAlternatives _ kind_dropZeroSigns, h.map_absorb, insertAlternative]

lemma map_foldl_insertAlternative (others children : List Node) :
    (others.foldl (insertAlternative combine) children).map dropZeroSigns =
      (others.map dropZeroSigns).foldl (insertAlternative combine)
        (children.map dropZeroSigns) := by
  induction others generalizing children with
  | nil => rfl
  | cons node others ih =>
    rw [List.foldl_cons, ih, h.map_insertAlternative, List.map_cons, List.foldl_cons]

lemma map_absorbField (name : String) (node : Node) (fields : List (String × Node)) :
    (absorbField combine name node fields).map (fun field => (field.1, field.2.dropZeroSigns)) =
      absorbField combine name node.dropZeroSigns
        (fields.map fun field => (field.1, field.2.dropZeroSigns)) := by
  induction fields with
  | nil => rfl
  | cons field fields ih =>
    simp only [absorbField_cons, List.map_cons]
    split
    · rw [List.map_cons, h]
    · rw [List.map_cons, ih]

lemma map_mergeFields (left right : List (String × Node)) :
    (mergeFields combine left right).map (fun field => (field.1, field.2.dropZeroSigns)) =
      mergeFields combine (left.map fun field => (field.1, field.2.dropZeroSigns))
        (right.map fun field => (field.1, field.2.dropZeroSigns)) := by
  induction right generalizing left with
  | nil => rfl
  | cons field right ih =>
    rw [mergeFields_cons, ih, h.map_absorbField, List.map_cons, mergeFields_cons]

lemma unite (a b : Node) :
    (unite combine a b).dropZeroSigns = Node.unite combine a.dropZeroSigns b.dropZeroSigns := by
  by_cases ha : a.kind = .union
  · obtain ⟨children, rfl⟩ := eq_union_of_kind ha
    simp only [Node.unite, dropZeroSigns, dropZeroSignsOfAll_eq_map, h.map_insertAlternative]
  by_cases hb : b.kind = .union
  · obtain ⟨children, rfl⟩ := eq_union_of_kind hb
    rw [unite_union_right ha, dropZeroSigns, dropZeroSigns, unite_union_right (by simpa using ha),
      dropZeroSignsOfAll_eq_map, dropZeroSignsOfAll_eq_map, h.map_insertAlternative]
  · rw [unite_of_kind_ne_union ha hb,
      unite_of_kind_ne_union (by simpa using ha) (by simpa using hb), dropZeroSigns,
      dropZeroSignsOfAll_eq_map, map_sortAlternatives _ kind_dropZeroSigns, List.map_cons,
      List.map_cons, List.map_nil]

/-- Within a family: bounds are compared as numbers, and parts are combined. -/
lemma mergeLevel_of_alike {a b : Node} (hab : Alike a b) :
    (Node.mergeLevel combine a b).dropZeroSigns =
      Node.mergeLevel combine a.dropZeroSigns b.dropZeroSigns := by
  cases hab with
  | floatings | integerFloating | floatingInteger =>
    simp [Node.mergeLevel, dropZeroSigns, Double.ofInt_eq_ofPlace]
  | structs =>
    simp only [Node.mergeLevel, dropZeroSigns, ofFields, dropZeroSignsOfFields_eq_map,
      map_sortFields, h.map_mergeFields]
  | lists => simp only [Node.mergeLevel, dropZeroSigns, h _ _]
  | unions =>
    simp only [Node.mergeLevel, dropZeroSigns, dropZeroSignsOfAll_eq_map,
      h.map_foldl_insertAlternative]
  | _ => rfl

lemma mergeLevel (a b : Node) :
    (Node.mergeLevel combine a b).dropZeroSigns =
      Node.mergeLevel combine a.dropZeroSigns b.dropZeroSigns := by
  -- dropping signs changes neither kinds nor presence, so both sides fall under the same rule
  rcases eq_void_or_eq_null_or_isPresent a with rfl | rfl | ha
  · rfl
  · by_cases hb : b = .void
    · rw [hb]
      rfl
    · rw [mergeLevel_null_left hb, dropZeroSigns, mergeLevel_null_left (by simpa using hb)]
  rcases eq_void_or_eq_null_or_isPresent b with rfl | rfl | hb
  · rw [mergeLevel_void_right, dropZeroSigns, mergeLevel_void_right]
  · rw [mergeLevel_null_right ha.1, dropZeroSigns, mergeLevel_null_right (by simpa using ha.1)]
  by_cases hfamily : a.kind.family = b.kind.family
  · exact h.mergeLevel_of_alike (alike_of_family_eq hfamily)
  · rw [mergeLevel_of_family_ne ha hb hfamily, h.unite,
      mergeLevel_of_family_ne (isPresent_dropZeroSigns.mpr ha) (isPresent_dropZeroSigns.mpr hb)
        (by simpa using hfamily)]

end IgnoresZeroSigns

lemma ignoresZeroSigns_mergeWithin (depth : ℕ) : IgnoresZeroSigns (mergeWithin depth) := by
  induction depth with
  | zero => exact fun a b => rfl
  | succ depth ih => exact fun a b => ih.mergeLevel a b

/-- The signs of zeros may be dropped before or after merging. -/
theorem dropZeroSigns_merge (a b : Node) :
    (a.merge b).dropZeroSigns = a.dropZeroSigns.merge b.dropZeroSigns := by
  rw [merge, ignoresZeroSigns_mergeWithin, merge, size_dropZeroSigns, size_dropZeroSigns]

end Node

end RecordSchema
