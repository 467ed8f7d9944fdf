import RecordSchema.Proofs.Node.Algebra

/-!
# Going down into nodes

A step leads from a node to the node of a field of its struct, or to that of the elements of its
list, whether these stand alone or among the alternatives of a union.  A path takes several steps.
Where there is no such field and no list, there is an absent node.

A merge goes down into both sides: the node at a path of a merge is the merge of the two nodes at
this path (`descend_merge`).  As for alternatives, the order of the two is left open, since either
one may be joined to the other on the way.
-/

namespace RecordSchema

/-- One step into records or into the nodes that describe them. -/
inductive Step where
  /-- To the member of a name. -/
  | field (name : String)
  /-- To the elements of an array. -/
  | element
deriving DecidableEq, Repr

/-- How the step is written at the end of a location. -/
def Step.text : Step → String
  | .field name => "." ++ name
  | .element => ".list"

/-- The location that a path leads to from a given one. -/
def locate (location : String) (path : List Step) : String :=
  path.foldl (fun text step => text ++ step.text) location

/-- The family of the alternatives that a step goes into. -/
def Step.family : Step → Kind
  | .field _ => .struct
  | .element => .list

namespace Node

/-- The node that a step leads to within one alternative. -/
def part : Step → Node → Node
  | .field name, .struct fields _ => fieldNode name fields
  | .element, .list element => element
  | _, _ => .void

/-- The node that a step leads to. -/
def enter (step : Step) (node : Node) : Node := part step (pick step.family node.alternatives)

/-- The node at a path, absent if the path leads nowhere. -/
def descend : List Step → Node → Node
  | [], node => node
  | step :: path, node => descend path (node.enter step)

@[simp] lemma part_void (step : Step) : part step .void = .void := by
  cases step <;> rfl

lemma part_of_family_ne {step : Step} {node : Node} (h : node.kind.family ≠ step.family) :
    part step node = .void := by
  cases step <;> cases node <;> first | rfl | exact absurd rfl h

lemma enter_of_alternatives_eq_nil {node : Node} (h : node.alternatives = []) (step : Step) :
    node.enter step = .void := by
  rw [enter, h, pick_nil, part_void]

lemma descend_void (path : List Step) : descend path .void = .void := by
  induction path with
  | nil => rfl
  | cons step path ih => rw [descend, enter_of_alternatives_eq_nil rfl, ih]

/-! ### Schemas below schemas -/

lemma pick_eq_void_or_family_eq (family : Kind) (nodes : List Node) :
    pick family nodes = .void ∨ (pick family nodes).kind.family = family :=
  (pick_eq_void_or_mem family nodes).imp_right And.right

lemma isSchema_pick {node : Node} (h : node.IsSchema) (family : Kind) :
    (pick family node.alternatives).IsSchema := by
  rcases h with rfl | h
  · exact Or.inl rfl
  · rcases pick_eq_void_or_mem family node.alternatives with hvoid | ⟨hmem, -⟩
    · exact Or.inl hvoid
    · exact Or.inr (h.of_mem_alternatives hmem)

lemma isSchema_part {node : Node} (h : node.IsSchema) (step : Step) : (part step node).IsSchema := by
  rcases h with rfl | h
  · rw [part_void]
    exact Or.inl rfl
  cases step with
  | field name =>
    cases h with
    | @struct _ shapes increasing seen canonical =>
      have hstruct : Canonical (.struct _ shapes) := .struct increasing seen canonical
      exact isSchema_fieldNode hstruct name
    | _ => exact Or.inl rfl
  | element =>
    cases h with
    | list canonical => exact Or.inr canonical
    | _ => exact Or.inl rfl

lemma isSchema_enter {node : Node} (h : node.IsSchema) (step : Step) : (node.enter step).IsSchema :=
  isSchema_part (isSchema_pick h step.family) step

lemma isSchema_descend {node : Node} (h : node.IsSchema) (path : List Step) :
    (node.descend path).IsSchema := by
  induction path generalizing node with
  | nil => exact h
  | cons step path ih => exact ih (isSchema_enter h step)

/-! ### Below a merge -/

/-- Alternatives of the family of a step are merged part by part. -/
lemma part_merge {a b : Node} (ha : a.IsSchema) (hb : b.IsSchema) {step : Step}
    (hfamily : a = .void ∨ a.kind.family = step.family)
    (hfamily' : b = .void ∨ b.kind.family = step.family) :
    part step (a.merge b) = (part step a).merge (part step b) := by
  rcases hfamily with rfl | hfamily
  · rw [merge_void_left, part_void, merge_void_left]
  rcases hfamily' with rfl | hfamily'
  · rw [merge_void_right, part_void, merge_void_right]
  have hab : Alike a b := alike_of_family_eq (hfamily.trans hfamily'.symm)
  cases step with
  | field name =>
    cases hab with
    | structs fields others shapes otherShapes =>
      have hnames := (ha.resolve_left (by simp)).nodup_names
      have hnames' := (hb.resolve_left (by simp)).nodup_names
      rw [merge_structs]
      exact fieldNode_sortFields_mergeFields name hnames hnames'
    | _ => simp [kind, Kind.family, Step.family] at hfamily
  | element =>
    cases hab with
    | lists element other =>
      rw [merge_lists]
      rfl
    | _ => simp [kind, Kind.family, Step.family] at hfamily

/-- A step into a merge leads to the merge of what it leads to on either side. -/
lemma enter_merge {a b : Node} (ha : a.IsSchema) (hb : b.IsSchema) (step : Step) :
    (a.merge b).enter step = (a.enter step).merge (b.enter step) ∨
      (a.merge b).enter step = (b.enter step).merge (a.enter step) := by
  have hpick := isSchema_pick ha step.family
  have hpick' := isSchema_pick hb step.family
  have hfamily := pick_eq_void_or_family_eq step.family a.alternatives
  have hfamily' := pick_eq_void_or_family_eq step.family b.alternatives
  unfold enter
  rcases pick_merge ha hb step.family with h | h
  · left
    rw [h, part_merge hpick hpick' hfamily hfamily']
  · right
    rw [h, part_merge hpick' hpick hfamily' hfamily]

/-- The node at a path of a merge is the merge of the nodes at this path. -/
theorem descend_merge {a b : Node} (ha : a.IsSchema) (hb : b.IsSchema) (path : List Step) :
    (a.merge b).descend path = (a.descend path).merge (b.descend path) ∨
      (a.merge b).descend path = (b.descend path).merge (a.descend path) := by
  induction path generalizing a b with
  | nil => exact Or.inl rfl
  | cons step path ih =>
    have henter := isSchema_enter ha step
    have henter' := isSchema_enter hb step
    simp only [descend]
    rcases enter_merge ha hb step with h | h
    · rw [h]
      exact ih henter henter'
    · rw [h]
      exact (ih henter' henter).symm

end Node

end RecordSchema
