import RecordSchema.Proofs.Render.Context

/-!
# Skeletons

The skeleton of a node is what its texts show: the kind at every position, the names of fields and
the names of leaves.  Bounds are forgotten except for the name that they give to a number, and so
are shapes.

Nodes with one skeleton have the same type on one line (`typeText_eq_of_skeleton_eq`).
-/

namespace RecordSchema

/-- A node without bounds and shapes. -/
inductive Skeleton where
  /-- A node without parts: its kind, and the name that it is printed with. -/
  | leaf (kind : Kind) (name : String)
  | struct (fields : List (String × Skeleton))
  | list (element : Skeleton)
  | union (children : List Skeleton)

/-- The kind at the root of a skeleton. -/
def Skeleton.kind : Skeleton → Kind
  | .leaf kind _ => kind
  | .struct _ => .struct
  | .list _ => .list
  | .union _ => .union

/-- Lists with the same image under one function have the same image under another one that looks
at less. -/
lemma map_eq_of_map_eq {α β γ : Type} {f : α → β} {g : α → γ} {xs ys : List α}
    (h : xs.map f = ys.map f) (hfg : ∀ x ∈ xs, ∀ y ∈ ys, f x = f y → g x = g y) :
    xs.map g = ys.map g := by
  induction xs generalizing ys with
  | nil =>
    rw [List.map_nil] at h
    rw [List.map_eq_nil_iff.mp h.symm]
  | cons x xs ih =>
    cases ys with
    | nil => simp at h
    | cons y ys =>
      simp only [List.map_cons, List.cons.injEq, List.mem_cons, forall_eq_or_imp] at h hfg ⊢
      exact ⟨hfg.1.1 h.1, ih h.2 fun x hx y hy => (hfg.2 x hx).2 y hy⟩

namespace Node

mutual

/-- The skeleton of a node. -/
def skeleton : Node → Skeleton
  | .struct fields _ => .struct (skeletonsOfFields fields)
  | .list element => .list element.skeleton
  | .union children => .union (skeletonsOfAll children)
  | node => .leaf node.kind node.primitiveName

/-- The skeleton of the node of each field. -/
def skeletonsOfFields : List (String × Node) → List (String × Skeleton)
  | [] => []
  | (name, node) :: fields => (name, node.skeleton) :: skeletonsOfFields fields

/-- The skeleton of each node of a list. -/
def skeletonsOfAll : List Node → List Skeleton
  | [] => []
  | node :: nodes => node.skeleton :: skeletonsOfAll nodes

end

@[simp] lemma skeletonsOfFields_eq_map (fields : List (String × Node)) :
    skeletonsOfFields fields = fields.map fun field => (field.1, field.2.skeleton) := by
  induction fields with
  | nil => rfl
  | cons field fields ih => rw [skeletonsOfFields, ih, List.map_cons]

@[simp] lemma skeletonsOfAll_eq_map (nodes : List Node) :
    skeletonsOfAll nodes = nodes.map skeleton := by
  induction nodes with
  | nil => rfl
  | cons node nodes ih => rw [skeletonsOfAll, ih, List.map_cons]

/-! ### Leaves and parts -/

/-- A node without parts. -/
def IsLeaf (node : Node) : Prop := node.kind ≠ .struct ∧ node.kind ≠ .list ∧ node.kind ≠ .union

instance (node : Node) : Decidable node.IsLeaf := inferInstanceAs (Decidable (_ ∧ _))

lemma eq_struct_of_kind {node : Node} (h : node.kind = .struct) :
    ∃ fields shapes, node = .struct fields shapes := by
  cases node <;> simp_all [kind]

lemma eq_list_of_kind {node : Node} (h : node.kind = .list) : ∃ element, node = .list element := by
  cases node <;> simp_all [kind]

lemma skeleton_of_isLeaf {node : Node} (h : node.IsLeaf) :
    node.skeleton = .leaf node.kind node.primitiveName := by
  obtain ⟨hstruct, hlist, hunion⟩ := h
  cases node with
  | struct => exact absurd rfl hstruct
  | list => exact absurd rfl hlist
  | union => exact absurd rfl hunion
  | _ => rfl

lemma isLeaf_of_family {node : Node} (h : node.kind.family = .floating) : node.IsLeaf := by
  cases node with
  | integer | floating => exact ⟨by simp [kind], by simp [kind], by simp [kind]⟩
  | _ => simp [kind, Kind.family] at h

lemma IsLeaf.isPrintedByName {node : Node} (h : node.IsLeaf) : node.IsPrintedByName := by
  obtain ⟨hstruct, hlist, hunion⟩ := h
  cases node with
  | struct => exact absurd rfl hstruct
  | list => exact absurd rfl hlist
  | union => exact absurd rfl hunion
  | _ => exact ⟨rfl, fun _ _ => rfl, fun _ => rfl⟩

@[simp] lemma kind_skeleton (node : Node) : node.skeleton.kind = node.kind := by
  cases node <;> rfl

lemma kind_eq_of_skeleton_eq {a b : Node} (h : a.skeleton = b.skeleton) : a.kind = b.kind := by
  rw [← kind_skeleton, h, kind_skeleton]

lemma skeleton_eq_struct_iff {node : Node} {skeletons : List (String × Skeleton)} :
    node.skeleton = .struct skeletons ↔ ∃ fields shapes, node = .struct fields shapes ∧
      fields.map (fun field => (field.1, field.2.skeleton)) = skeletons := by
  cases node <;> simp [skeleton]

lemma skeleton_eq_list_iff {node : Node} {inner : Skeleton} :
    node.skeleton = .list inner ↔ ∃ element, node = .list element ∧ element.skeleton = inner := by
  cases node <;> simp [skeleton]

lemma skeleton_eq_union_iff {node : Node} {skeletons : List Skeleton} :
    node.skeleton = .union skeletons ↔
      ∃ children, node = .union children ∧ children.map skeleton = skeletons := by
  cases node <;> simp [skeleton]

lemma skeleton_eq_leaf_iff {node : Node} {kind : Kind} {name : String} :
    node.skeleton = .leaf kind name ↔
      node.IsLeaf ∧ node.kind = kind ∧ node.primitiveName = name := by
  cases node <;> simp [skeleton, IsLeaf, Node.kind]

/-! ### What a skeleton shows -/

lemma eq_void_of_skeleton_eq {node : Node} (h : node.skeleton = void.skeleton) : node = .void :=
  eq_void_of_kind (kind_eq_of_skeleton_eq h)

lemma primitiveName_eq_of_skeleton_eq {a b : Node} (h : a.skeleton = b.skeleton) :
    a.primitiveName = b.primitiveName := by
  cases a with
  | struct =>
    obtain ⟨_, _, rfl, -⟩ := skeleton_eq_struct_iff.mp h.symm
    rfl
  | list =>
    obtain ⟨_, rfl, -⟩ := skeleton_eq_list_iff.mp h.symm
    rfl
  | union =>
    obtain ⟨_, rfl, -⟩ := skeleton_eq_union_iff.mp h.symm
    rfl
  | _ => exact (skeleton_eq_leaf_iff.mp h.symm).2.2.symm

/-- A node without bounds and parts is the only one of its skeleton. -/
lemma eq_of_skeleton_eq {a b : Node} (hleaf : a.IsLeaf ∧ a.kind.family ≠ .floating)
    (h : a.skeleton = b.skeleton) : a = b := by
  have hkind := kind_eq_of_skeleton_eq h
  obtain ⟨⟨hstruct, hlist, hunion⟩, hnumber⟩ := hleaf
  cases a <;> cases b <;> first | rfl | contradiction

/-! ### Zeros -/

lemma skeleton_dropZeroSigns (node : Node) : node.dropZeroSigns.skeleton = node.skeleton := by
  induction node using induction with
  | struct fields shapes ih =>
    simp only [dropZeroSigns, skeleton, dropZeroSignsOfFields_eq_map, skeletonsOfFields_eq_map,
      List.map_map]
    rw [List.map_congr_left]
    intro field hfield
    simp only [Function.comp_apply, ih field hfield]
  | list element ih => simp only [dropZeroSigns, skeleton, ih]
  | union children ih =>
    simp only [dropZeroSigns, skeleton, dropZeroSignsOfAll_eq_map, skeletonsOfAll_eq_map,
      List.map_map]
    rw [List.map_congr_left]
    exact ih
  | floating min max =>
    have hname := primitiveName_dropZeroSigns (.floating min max)
    simp only [dropZeroSigns] at hname
    simp only [dropZeroSigns, skeleton, hname, kind]
  | _ => rfl

/-! ### The type of a skeleton -/

/-- Nodes with one skeleton have the same type on one line. -/
theorem typeText_eq_of_skeleton_eq {a b : Node} (h : a.skeleton = b.skeleton) :
    a.typeText = b.typeText := by
  induction a using induction generalizing b with
  | struct fields shapes ih =>
    obtain ⟨others, _, rfl, hfields⟩ := skeleton_eq_struct_iff.mp h.symm
    rw [skeletonsOfFields_eq_map] at hfields
    have htexts : fieldTexts fields = fieldTexts others := by
      rw [fieldTexts_eq_map, fieldTexts_eq_map]
      refine map_eq_of_map_eq hfields.symm fun field hfield other _ heq => ?_
      simp only [Prod.mk.injEq] at heq
      rw [heq.1, ih field hfield heq.2]
    simp only [typeText, htexts]
  | list element ih =>
    obtain ⟨other, rfl, helement⟩ := skeleton_eq_list_iff.mp h.symm
    simp only [typeText, ih helement.symm]
  | union children ih =>
    obtain ⟨others, rfl, hchildren⟩ := skeleton_eq_union_iff.mp h.symm
    rw [skeletonsOfAll_eq_map] at hchildren
    have htexts : typeTexts children = typeTexts others := by
      rw [typeTexts_eq_map, typeTexts_eq_map]
      exact map_eq_of_map_eq hchildren.symm fun child hchild other _ heq => ih child hchild heq
    simp only [typeText, htexts]
  | _ =>
    obtain ⟨hleaf, -, hname⟩ := skeleton_eq_leaf_iff.mp h.symm
    rw [hleaf.isPrintedByName.typeText, hname]
    rfl

end Node

end RecordSchema
