import RecordSchema.Proofs.Render.Context

/-!
# Leaves of a listing

The lines of a listing stand at different places, and none of them stands above another one, as
long as the names of fields are distinct and have no point (`Listable.apart`).  So a location has
at most one line at it or above it (`Listable.eq_of_above`).

A location is above another one if its text is the beginning of the other text, up to a point or up
to the end.  Elements of lists are written like a field with the name `list`.  This does no harm,
because a node is either a struct or a list, and a listing does not go into unions.
-/

namespace RecordSchema

/-! ### Locations above others -/

/-- The location is at the path or below it: its text goes on with a point, or not at all. -/
def Above (path location : String) : Prop :=
  ∃ rest, location.toList = path.toList ++ rest ∧ Node.Stops (· = '.') rest

namespace Above

lemma refl (path : String) : Above path path := ⟨[], by simp, by simp [Node.Stops]⟩

lemma trans {a b c : String} (h : Above a b) (h' : Above b c) : Above a c := by
  obtain ⟨rest, hb, hrest⟩ := h
  obtain ⟨rest', hc, hrest'⟩ := h'
  refine ⟨rest ++ rest', by rw [hc, hb, List.append_assoc], ?_⟩
  cases rest with
  | nil => exact hrest'
  | cons c rest => exact hrest

/-- Of two locations above a third one, one is above the other. -/
lemma total {a b c : String} (h : Above a c) (h' : Above b c) : Above a b ∨ Above b a := by
  obtain ⟨rest, hc, hrest⟩ := h
  obtain ⟨rest', hc', hrest'⟩ := h'
  rcases List.append_eq_append_iff.mp (hc.symm.trans hc') with ⟨between, hb, hbetween⟩ |
    ⟨between, ha, hbetween⟩
  · refine Or.inl ⟨between, hb, fun c hc => hrest c ?_⟩
    simp [hbetween, Option.mem_def.mp hc]
  · refine Or.inr ⟨between, ha, fun c hc => hrest' c ?_⟩
    simp [hbetween, Option.mem_def.mp hc]

lemma step (path : String) (step : Step) : Above path (path ++ step.text) := by
  cases step with
  | field name => exact ⟨'.' :: name.toList, by simp [Step.text], by simp [Node.Stops]⟩
  | element => exact ⟨".list".toList, by simp [Step.text], by simp [Node.Stops]⟩

lemma locate (root : String) (path : List Step) : Above root (RecordSchema.locate root path) := by
  induction path generalizing root with
  | nil => exact refl root
  | cons step path ih => exact (Above.step root step).trans (ih _)

/-- Fields with different names have no location below both of them. -/
lemma name_unique {path name other location : String} (hname : '.' ∉ name.toList)
    (hother : '.' ∉ other.toList) (h : Above (path ++ "." ++ name) location)
    (h' : Above (path ++ "." ++ other) location) : name = other := by
  obtain ⟨rest, hrest, hstops⟩ := h
  obtain ⟨rest', hrest', hstops'⟩ := h'
  rw [hrest] at hrest'
  simp only [String.toList_append, List.append_assoc, List.append_cancel_left_eq] at hrest'
  have hpoint : ∀ {word : String}, '.' ∉ word.toList → ∀ c ∈ word.toList, ¬ c = '.' := by
    rintro word hword c hc rfl
    exact hword hc
  exact String.toList_inj.mp
    (Node.word_unique (hpoint hname) (hpoint hother) hstops hstops' hrest').1

end Above

namespace Node

/-- A node without fields and elements has one line. -/
lemma leaves_of_family_ne {node : Node} (hstruct : node.kind.family ≠ .struct)
    (hlist : node.kind.family ≠ .list) (location : String) :
    node.leaves location = [⟨location, node⟩] := by
  cases node with
  | struct => exact absurd rfl hstruct
  | list => exact absurd rfl hlist
  | _ => rfl

/-- Every line of a listing is at the root or below it. -/
lemma above_of_mem_leaves {node : Node} {path : String} {leaf : Leaf}
    (h : leaf ∈ node.leaves path) : Above path leaf.path := by
  induction node using induction generalizing path with
  | struct fields shapes ih =>
    cases fields with
    | nil =>
      rw [List.mem_singleton.mp h]
      exact .refl path
    | cons field fields =>
      rw [leaves, leavesOfFields_eq_flatMap, List.mem_flatMap] at h
      obtain ⟨other, hother, hleaf⟩ := h
      have habove := Above.step path (.field other.1)
      rw [Step.text, ← String.append_assoc] at habove
      exact habove.trans (ih other hother hleaf)
  | list element ih => exact (Above.step path .element).trans (ih h)
  | _ =>
    rw [List.mem_singleton.mp h]
    exact .refl path

/-! ### Lines apart from each other -/

/-- The names of fields that a listing goes through are distinct and have no point. -/
inductive Listable : Node → Prop
  | leaf {node : Node} (single : ∀ path, node.leaves path = [⟨path, node⟩]) : Listable node
  | struct {fields : List (String × Node)} {shapes : ShapeSet} (distinct : (names fields).Nodup)
      (pointless : ∀ field ∈ fields, '.' ∉ field.1.toList)
      (listable : ∀ field ∈ fields, Listable field.2) : Listable (.struct fields shapes)
  | list {element : Node} (listable : Listable element) : Listable (.list element)

/-- Neither of two lines is above the other. -/
def Apart (leaf other : Leaf) : Prop := ¬ Above leaf.path other.path ∧ ¬ Above other.path leaf.path

lemma Listable.apart {node : Node} (h : Listable node) (path : String) :
    (node.leaves path).Pairwise Apart := by
  induction h generalizing path with
  | leaf single =>
    rw [single]
    exact List.pairwise_singleton _ _
  | @struct fields shapes distinct pointless _ ih =>
    cases fields with
    | nil => exact List.pairwise_singleton _ _
    | cons field fields =>
      rw [leaves, leavesOfFields_eq_flatMap, List.pairwise_flatMap]
      refine ⟨fun other hother => ih other hother _, ?_⟩
      -- lines below different fields have different names after the same path
      refine (List.pairwise_map.mp distinct).imp_of_mem ?_
      intro f g hf hg hne leaf hleaf other hother
      have hf' := pointless f hf
      have hg' := pointless g hg
      have habove := above_of_mem_leaves hleaf
      have habove' := above_of_mem_leaves hother
      exact ⟨fun h => hne (Above.name_unique hf' hg' (habove.trans h) habove'),
        fun h => hne (Above.name_unique hf' hg' habove (habove'.trans h))⟩
  | list _ ih => exact ih _

/-- The lines of a listing stand at different places. -/
lemma Listable.nodup_paths {node : Node} (h : Listable node) (root : String) :
    ((node.leaves root).map Leaf.path).Nodup := by
  refine List.pairwise_map.mpr ((h.apart root).imp ?_)
  intro leaf other hapart heq
  exact hapart.1 (heq ▸ Above.refl _)

/-- No two lines stand above one location. -/
lemma Listable.eq_of_above {node : Node} (h : Listable node) {root location : String}
    {leaf other : Leaf} (hleaf : leaf ∈ node.leaves root) (hother : other ∈ node.leaves root)
    (habove : Above leaf.path location) (habove' : Above other.path location) : leaf = other := by
  by_contra hne
  have hsymm : Std.Symm Apart := ⟨fun _ _ h => ⟨h.2, h.1⟩⟩
  have hapart := (h.apart root).forall hleaf hother hne
  rcases habove.total habove' with h | h
  · exact hapart.1 h
  · exact hapart.2 h

/-! ### The node of a line -/

/-- The steps through structs and lists lead back to the inner node of a context. -/
lemma descend_fill {layers : List Layer} (hlayers : ∀ layer ∈ layers, layer.step?.isSome)
    {node : Node} (h : (fill layers node).IsSchema) :
    (fill layers node).descend (steps layers) = node := by
  induction layers with
  | nil => rfl
  | cons layer layers ih =>
    obtain ⟨hlayer, hrest⟩ := List.forall_mem_cons.mp hlayers
    cases layer with
    | member before name after shapes =>
      have hmem : (name, fill layers node) ∈ before ++ (name, fill layers node) :: after := by simp
      have hcanonical : Canonical (.struct (before ++ (name, fill layers node) :: after) shapes) :=
        h.resolve_left (by simp [fill, Layer.fill])
      have hnode := fieldNode_of_mem hcanonical.nodup_names hmem
      have hschema := isSchema_fieldNode hcanonical name
      rw [hnode] at hschema
      show (fieldNode name (before ++ (name, fill layers node) :: after)).descend (steps layers) = _
      rw [hnode]
      exact ih hrest hschema
    | element =>
      have hcanonical : Canonical (.list (fill layers node)) :=
        h.resolve_left (by simp [fill, Layer.fill])
      cases hcanonical with
      | list canonical => exact ih hrest (Or.inr canonical)
    | alternative => cases hlayer

/-- A node without parts at the end of a path is in the line of a location on the way there.  Only
a union keeps the line from going all the way. -/
lemma exists_leaf_of_descend {node child : Node} (hnode : node.IsSchema) {path : List Step}
    (hchild : child ∈ (node.descend path).alternatives)
    (hsingle : ∀ location, child.leaves location = [⟨location, child⟩]) (root : String) :
    ∃ before after, path = before ++ after ∧
      ⟨locate root before, node.descend before⟩ ∈ node.leaves root ∧
        (after ≠ [] → (node.descend before).kind = .union) := by
  obtain ⟨layers, rfl, rfl⟩ := exists_layers_of_descend path hchild
  obtain ⟨outer, inner, rfl, houter, hinner, hleaf⟩ := exists_leaf_fill root layers hsingle
  rw [fill_append] at hnode hleaf ⊢
  refine ⟨steps outer, steps inner, steps_append outer inner, ?_, ?_⟩
  · rwa [descend_fill houter hnode]
  · intro hafter
    rw [descend_fill houter hnode]
    cases inner with
    | nil => exact absurd rfl hafter
    | cons layer inner =>
      cases layer with
      | alternative before after => rfl
      | member | element => simp [Layer.step?] at hinner

end Node

end RecordSchema
