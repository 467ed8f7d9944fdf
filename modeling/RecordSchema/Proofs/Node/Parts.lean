import RecordSchema.Proofs.Node.Preservation

/-!
# Nodes by their parts

A canonical node is determined by its alternatives, at most one for each family of kinds, and a
struct by its shapes and the nodes of its fields.  An alternative or a field that is not there is
taken to be absent, and an absent node changes nothing in a merge.  So merging two nodes is
merging their alternatives family by family (`pick_merge`), and merging two structs is merging
their fields name by name (`fieldNode_mergeFields`).

A union that a node joins puts its own alternative first, whichever side it is on.  This is why
`pick_merge` leaves the order of the two alternatives open.
-/

namespace RecordSchema

namespace Node

/-! ### The merge, kind by kind -/

@[simp] lemma merge_void_left (b : Node) : void.merge b = b := by
  rw [merge_eq_mergeLevel, mergeLevel_void_left]

@[simp] lemma merge_void_right (a : Node) : a.merge void = a := by
  rw [merge_eq_mergeLevel, mergeLevel_void_right]

lemma merge_null_left {b : Node} (h : b ≠ .void) : null.merge b = b := by
  rw [merge_eq_mergeLevel, mergeLevel_null_left h]

lemma merge_null_right {a : Node} (h : a ≠ .void) : a.merge null = a := by
  rw [merge_eq_mergeLevel, mergeLevel_null_right h]

lemma merge_integers (a b c d : ℤ) :
    (integer a b).merge (integer c d) = integer (min a c) (max b d) := by
  rw [merge_eq_mergeLevel]
  rfl

lemma merge_floatings (a b c d : Double) :
    (floating a b).merge (floating c d) = floating (a.min c) (b.max d) := by
  rw [merge_eq_mergeLevel]
  rfl

lemma merge_integer_floating (a b : ℤ) (c d : Double) :
    (integer a b).merge (floating c d) = floating (c.min (.ofInt a)) (d.max (.ofInt b)) := by
  rw [merge_eq_mergeLevel]
  rfl

lemma merge_floating_integer (c d : Double) (a b : ℤ) :
    (floating c d).merge (integer a b) = floating (c.min (.ofInt a)) (d.max (.ofInt b)) := by
  rw [merge_eq_mergeLevel]
  rfl

lemma merge_structs (fields others : List (String × Node)) (shapes otherShapes : ShapeSet) :
    (struct fields shapes).merge (struct others otherShapes) =
      struct (sortFields (mergeFields merge fields others)) (shapes.union otherShapes) := by
  rw [merge_eq_mergeLevel]
  rfl

lemma merge_lists (element other : Node) :
    (list element).merge (list other) = list (element.merge other) := by
  rw [merge_eq_mergeLevel]
  rfl

lemma merge_unions (children others : List Node) :
    (union children).merge (union others) =
      union (others.foldl (insertAlternative merge) children) := by
  rw [merge_eq_mergeLevel]
  rfl

lemma merge_of_family_ne {a b : Node} (ha : a.IsPresent) (hb : b.IsPresent)
    (h : a.kind.family ≠ b.kind.family) : a.merge b = unite merge a b := by
  rw [merge_eq_mergeLevel, mergeLevel_of_family_ne ha hb h]

/-! ### The alternative of a family -/

/-- The node of a family among alternatives, absent if there is none. -/
def pick (family : Kind) (nodes : List Node) : Node :=
  (nodes.find? fun node => decide (node.kind.family = family)).getD .void

@[simp] lemma pick_nil (family : Kind) : pick family [] = .void := rfl

lemma pick_cons (family : Kind) (node : Node) (nodes : List Node) :
    pick family (node :: nodes) =
      if node.kind.family = family then node else pick family nodes := by
  unfold pick
  by_cases h : node.kind.family = family <;> simp [h]

lemma pick_eq_void_of_notMem {family : Kind} {nodes : List Node} (h : family ∉ families nodes) :
    pick family nodes = .void := by
  induction nodes with
  | nil => rfl
  | cons node nodes ih =>
    rw [families_cons, List.mem_cons, not_or] at h
    rw [pick_cons, if_neg (Ne.symm h.1), ih h.2]

lemma pick_eq_void_or_mem (family : Kind) (nodes : List Node) :
    pick family nodes = .void ∨
      pick family nodes ∈ nodes ∧ (pick family nodes).kind.family = family := by
  induction nodes with
  | nil => exact Or.inl rfl
  | cons node nodes ih =>
    rw [pick_cons]
    split
    · next h => exact Or.inr ⟨List.mem_cons_self, h⟩
    · rcases ih with h | ⟨hmem, hfamily⟩
      · exact Or.inl h
      · exact Or.inr ⟨List.mem_cons_of_mem _ hmem, hfamily⟩

lemma pick_of_mem {nodes : List Node} (h : (families nodes).Nodup) {node : Node}
    (hnode : node ∈ nodes) : pick node.kind.family nodes = node := by
  rw [pick, find?_key_of_mem (fun node : Node => node.kind.family) h hnode, Option.getD_some]

lemma pick_perm {nodes others : List Node} (h : (families nodes).Nodup)
    (hperm : nodes.Perm others) (family : Kind) : pick family nodes = pick family others := by
  rw [pick, pick, find?_key_perm (fun node : Node => node.kind.family) h hperm]

lemma pick_absorb (family : Kind) (node : Node) (children : List Node) :
    pick family (absorb merge node children) =
      (pick family children).merge (pick family [node]) := by
  rw [pick_cons, pick_nil]
  induction children with
  | nil => rw [absorb, pick_cons, pick_nil, merge_void_left]
  | cons child children ih =>
    rw [absorb_cons]
    by_cases hchild : child.kind.family = node.kind.family
    · rw [if_pos hchild, pick_cons, pick_cons, keepsFamily_merge _ _ hchild, hchild]
      split
      · rfl
      · rw [merge_void_right]
    · rw [if_neg hchild, pick_cons, pick_cons, ih]
      split
      · next h => rw [if_neg fun hnode => hchild (h.trans hnode.symm), merge_void_right]
      · rfl

lemma nodup_families_insertAlternative (node : Node) {children : List Node}
    (h : (families children).Nodup) : (families (insertAlternative merge children node)).Nodup :=
  ((perm_sortBy _ _).map _).nodup_iff.mpr (nodup_families_absorb keepsFamily_merge node h)

lemma pick_insertAlternative (family : Kind) (node : Node) {children : List Node}
    (h : (families children).Nodup) :
    pick family (insertAlternative merge children node) =
      (pick family children).merge (pick family [node]) := by
  rw [← pick_absorb, insertAlternative, sortAlternatives]
  exact (pick_perm (nodup_families_absorb keepsFamily_merge node h)
    (perm_sortBy _ _).symm family).symm

/-- Joining alternatives to others one by one merges them family by family. -/
lemma pick_foldl_insertAlternative (family : Kind) {others : List Node}
    (hothers : (families others).Nodup) {children : List Node}
    (hchildren : (families children).Nodup) :
    pick family (others.foldl (insertAlternative merge) children) =
      (pick family children).merge (pick family others) := by
  induction others generalizing children with
  | nil => rw [List.foldl_nil, pick_nil, merge_void_right]
  | cons node others ih =>
    obtain ⟨hnode, hothers⟩ := List.nodup_cons.mp hothers
    rw [List.foldl_cons, ih hothers (nodup_families_insertAlternative node hchildren),
      pick_insertAlternative family node hchildren, pick_cons, pick_cons, pick_nil]
    split
    · next h =>
      have hvoid : pick family others = .void := pick_eq_void_of_notMem (h ▸ hnode)
      rw [hvoid, merge_void_right]
    · rw [merge_void_right]

/-! ### All alternatives of a node -/

/-- The alternatives that a node offers: a union its own, a null none, and other nodes
themselves. -/
def alternatives : Node → List Node
  | .void | .null => []
  | .union children => children
  | node => [node]

lemma alternatives_of_isAlternative {node : Node} (h : node.IsAlternative) :
    node.alternatives = [node] := by
  obtain ⟨⟨hvoid, hnull⟩, hunion⟩ := h
  cases node <;> first | rfl | contradiction

variable {Seen : ShapeSet → Prop}

lemma CanonicalWith.alternatives {node : Node} (h : CanonicalWith Seen node) :
    Alternatives node.alternatives := by
  cases h with
  | null => exact ⟨.nil, .nil, nofun⟩
  | union _ alternatives _ => exact alternatives
  | _ =>
    refine ⟨List.pairwise_singleton _ _, List.pairwise_singleton _ _, ?_⟩
    rintro child hchild
    rw [List.mem_singleton.mp hchild]
    exact ⟨⟨nofun, nofun⟩, nofun⟩

lemma CanonicalWith.of_mem_alternatives {node : Node} (h : CanonicalWith Seen node) {child : Node}
    (hchild : child ∈ node.alternatives) : CanonicalWith Seen child := by
  cases h with
  | null => cases hchild
  | union _ _ canonical => exact canonical child hchild
  | _ =>
    rw [List.mem_singleton.mp hchild]
    constructor <;> assumption

/-- A canonical node is null without alternatives, the one it has, or their union. -/
def ofAlternatives : List Node → Node
  | [] => .null
  | [node] => node
  | nodes => .union nodes

lemma CanonicalWith.ofAlternatives_alternatives {node : Node} (h : CanonicalWith Seen node) :
    ofAlternatives node.alternatives = node := by
  cases h with
  | @union children two _ _ =>
    match children, two with
    | _ :: _ :: _, _ => rfl
  | _ => rfl

/-- Alternatives that look the same in every family look the same, in the same order.  What is
looked at shows the kind at least. -/
lemma Alternatives.map_eq {β : Type} {view : Node → β}
    (hkind : ∀ {x y : Node}, view x = view y → x.kind = y.kind) {children others : List Node}
    (hchildren : Alternatives children) (hothers : Alternatives others)
    (h : ∀ family, view (pick family children) = view (pick family others)) :
    children.map view = others.map view := by
  have mem_of_mem : ∀ {children others : List Node}, Alternatives children →
      (∀ family, view (pick family children) = view (pick family others)) →
      ∀ x ∈ children.map view, x ∈ others.map view := by
    intro children others hchildren h x hx
    obtain ⟨child, hchild, rfl⟩ := List.mem_map.mp hx
    -- the child is the alternative of its own family, hence it looks like the other one there
    have hpick := h child.kind.family
    rw [pick_of_mem (nodup_families_iff.mpr hchildren.apart) hchild] at hpick
    rcases pick_eq_void_or_mem child.kind.family others with hvoid | ⟨hmem, -⟩
    · rw [hvoid] at hpick
      exact absurd (eq_void_of_kind (hkind hpick)) (hchildren.alternative child hchild).1.1
    · exact hpick ▸ List.mem_map_of_mem hmem
  have increasing : ∀ {children : List Node}, Alternatives children →
      (children.map view).Pairwise
        fun x y => ∃ a b, view a = x ∧ view b = y ∧ a.kind.rank < b.kind.rank := by
    intro children hchildren
    refine List.pairwise_map.mpr (hchildren.increasing.imp ?_)
    intro x y hxy
    exact ⟨x, y, rfl, rfl, hxy⟩
  refine eq_of_pairwise_of_mem_iff ?_ (increasing hchildren) (increasing hothers)
    fun x => ⟨mem_of_mem hchildren h x, mem_of_mem hothers (fun family => (h family).symm) x⟩
  rintro _ _ ⟨x, y, rfl, rfl, hxy⟩ ⟨z, w, hz, hw, hzw⟩
  rw [hkind hz, hkind hw] at hzw
  exact Nat.lt_asymm hxy hzw

/-- Canonical nodes whose alternatives look the same in every family have alternatives that look
the same, in the same order. -/
lemma map_alternatives_eq {β : Type} {view : Node → β}
    (hkind : ∀ {x y : Node}, view x = view y → x.kind = y.kind) {a b : Node} (ha : a.Canonical)
    (hb : b.Canonical)
    (h : ∀ family, view (pick family a.alternatives) = view (pick family b.alternatives)) :
    a.alternatives.map view = b.alternatives.map view :=
  ha.alternatives.map_eq hkind hb.alternatives h

/-- Canonical nodes with the same alternative in every family are equal. -/
theorem eq_of_pick_eq {a b : Node} (ha : a.Canonical) (hb : b.Canonical)
    (h : ∀ family, pick family a.alternatives = pick family b.alternatives) : a = b := by
  have heq := map_alternatives_eq (fun hxy => congrArg kind hxy) ha hb h
  rw [List.map_id', List.map_id'] at heq
  rw [← ha.ofAlternatives_alternatives, heq, hb.ofAlternatives_alternatives]

/-! ### Merging alternative by alternative -/

lemma IsSchema.nodup_families {node : Node} (h : node.IsSchema) :
    (families node.alternatives).Nodup := by
  rcases h with rfl | h
  · exact List.nodup_nil
  · exact nodup_families_iff.mpr h.alternatives.apart

/-- Across families, a merge unites the alternatives of one side with those of the other. -/
lemma alternatives_unite {a b : Node} (ha : a.Canonical) (hb : b.Canonical) (hpresent : a.IsPresent)
    (hpresent' : b.IsPresent) (hfamily : a.kind.family ≠ b.kind.family) :
    (unite merge a b).alternatives =
        b.alternatives.foldl (insertAlternative merge) a.alternatives ∨
      (unite merge a b).alternatives =
        a.alternatives.foldl (insertAlternative merge) b.alternatives := by
  by_cases hunion : a.kind = .union
  · obtain ⟨children, rfl⟩ := eq_union_of_kind hunion
    have hb : b.IsAlternative := ⟨hpresent', fun hkind => hfamily (by rw [hunion, hkind])⟩
    rw [alternatives_of_isAlternative hb]
    exact Or.inl rfl
  by_cases hunion' : b.kind = .union
  · obtain ⟨children, rfl⟩ := eq_union_of_kind hunion'
    rw [unite_union_right hunion, alternatives_of_isAlternative ⟨hpresent, hunion⟩]
    exact Or.inr rfl
  · rw [unite_of_kind_ne_union hunion hunion', alternatives_of_isAlternative ⟨hpresent, hunion⟩,
      alternatives_of_isAlternative ⟨hpresent', hunion'⟩]
    left
    simp only [alternatives, List.foldl_cons, List.foldl_nil, insertAlternative, absorb,
      if_neg hfamily]

/-- The alternatives of a merge are the merged alternatives, family by family. -/
theorem pick_merge {a b : Node} (ha : a.IsSchema) (hb : b.IsSchema) (family : Kind) :
    pick family (a.merge b).alternatives =
        (pick family a.alternatives).merge (pick family b.alternatives) ∨
      pick family (a.merge b).alternatives =
        (pick family b.alternatives).merge (pick family a.alternatives) := by
  have hnodup := ha.nodup_families
  have hnodup' := hb.nodup_families
  rcases ha with rfl | ha
  · simp [alternatives]
  rcases hb with rfl | hb
  · simp [alternatives]
  rcases eq_void_or_eq_null_or_isPresent a with rfl | rfl | hpresent
  · cases ha
  · simp [merge_null_left hb.ne_void, alternatives]
  rcases eq_void_or_eq_null_or_isPresent b with rfl | rfl | hpresent'
  · cases hb
  · simp [merge_null_right ha.ne_void, alternatives]
  by_cases hfamily : a.kind.family = b.kind.family
  · -- one family: two unions, or one alternative on either side
    left
    by_cases hunion : a.kind = .union
    · obtain ⟨children, rfl⟩ := eq_union_of_kind hunion
      obtain ⟨others, rfl⟩ : ∃ others, b = .union others := by
        cases alike_of_family_eq hfamily
        exact ⟨_, rfl⟩
      rw [merge_unions]
      exact pick_foldl_insertAlternative family hnodup' hnodup
    · have ha : a.IsAlternative := ⟨hpresent, hunion⟩
      have hmerge : (a.merge b).kind.family = a.kind.family := keepsFamily_merge a b hfamily
      rw [alternatives_of_isAlternative (ha.of_family_eq hmerge),
        alternatives_of_isAlternative ha,
        alternatives_of_isAlternative (ha.of_family_eq hfamily.symm), pick_cons, pick_cons,
        pick_cons, hmerge, ← hfamily]
      split
      · rfl
      · simp
  · rw [merge_of_family_ne hpresent hpresent' hfamily]
    rcases alternatives_unite ha hb hpresent hpresent' hfamily with h | h
    · rw [h, pick_foldl_insertAlternative family hnodup' hnodup]
      exact Or.inl rfl
    · rw [h, pick_foldl_insertAlternative family hnodup hnodup']
      exact Or.inr rfl

/-! ### The field of a name -/

/-- The node of the field of a name, absent if there is none. -/
def fieldNode (name : String) (fields : List (String × Node)) : Node :=
  ((fields.find? fun field => decide (field.1 = name)).map Prod.snd).getD .void

@[simp] lemma fieldNode_nil (name : String) : fieldNode name [] = .void := rfl

lemma fieldNode_cons (name : String) (field : String × Node) (fields : List (String × Node)) :
    fieldNode name (field :: fields) =
      if field.1 = name then field.2 else fieldNode name fields := by
  unfold fieldNode
  by_cases h : field.1 = name <;> simp [h]

lemma fieldNode_eq_void_of_notMem {name : String} {fields : List (String × Node)}
    (h : name ∉ names fields) : fieldNode name fields = .void := by
  induction fields with
  | nil => rfl
  | cons field fields ih =>
    rw [names_cons, List.mem_cons, not_or] at h
    rw [fieldNode_cons, if_neg (Ne.symm h.1), ih h.2]

lemma fieldNode_eq_void_or_mem (name : String) (fields : List (String × Node)) :
    fieldNode name fields = .void ∨ (name, fieldNode name fields) ∈ fields := by
  induction fields with
  | nil => exact Or.inl rfl
  | cons field fields ih =>
    rw [fieldNode_cons]
    split
    · next h => exact Or.inr (h ▸ List.mem_cons_self)
    · exact ih.imp id (List.mem_cons_of_mem _)

lemma fieldNode_of_mem {fields : List (String × Node)} (h : (names fields).Nodup)
    {field : String × Node} (hfield : field ∈ fields) : fieldNode field.1 fields = field.2 := by
  rw [fieldNode, find?_key_of_mem Prod.fst h hfield, Option.map_some, Option.getD_some]

lemma fieldNode_sortFields {fields : List (String × Node)} (h : (names fields).Nodup)
    (name : String) : fieldNode name (sortFields fields) = fieldNode name fields := by
  rw [fieldNode, fieldNode, find?_key_perm Prod.fst h (perm_sortBy _ fields).symm, sortFields]

lemma fieldNode_absorbField (name label : String) (node : Node) (fields : List (String × Node)) :
    fieldNode name (absorbField merge label node fields) =
      (fieldNode name fields).merge (if label = name then node else .void) := by
  induction fields with
  | nil => rw [absorbField, fieldNode_cons, fieldNode_nil, merge_void_left]
  | cons field fields ih =>
    rw [absorbField_cons]
    by_cases hlabel : field.1 = label
    · rw [if_pos hlabel, fieldNode_cons, fieldNode_cons, hlabel]
      split
      · rfl
      · rw [merge_void_right]
    · rw [if_neg hlabel, fieldNode_cons, fieldNode_cons, ih]
      split
      · next h => rw [if_neg fun heq => hlabel (h.trans heq.symm), merge_void_right]
      · rfl

/-- Merging the fields of two structs merges them name by name. -/
theorem fieldNode_mergeFields (name : String) {right : List (String × Node)}
    (h : (names right).Nodup) (left : List (String × Node)) :
    fieldNode name (mergeFields merge left right) =
      (fieldNode name left).merge (fieldNode name right) := by
  induction right generalizing left with
  | nil => rw [mergeFields_nil, fieldNode_nil, merge_void_right]
  | cons field right ih =>
    obtain ⟨hfield, hright⟩ := List.nodup_cons.mp h
    rw [mergeFields_cons, ih hright, fieldNode_absorbField, fieldNode_cons]
    split
    · next hname =>
      have hvoid : fieldNode name right = .void := fieldNode_eq_void_of_notMem (hname ▸ hfield)
      rw [hvoid, merge_void_right]
    · rw [merge_void_right]

/-- Fields in order look the same if the nodes that they give to names do. -/
lemma map_fields_eq {β : Type} {view : Node → β}
    (hview : ∀ {node : Node}, view node = view .void → node = .void)
    {fields others : List (String × Node)} (hfields : fields.Pairwise fun f g => f.1 < g.1)
    (hothers : others.Pairwise fun f g => f.1 < g.1)
    (hvoid : ∀ field ∈ fields, field.2 ≠ .void) (hvoid' : ∀ field ∈ others, field.2 ≠ .void)
    (h : ∀ name, view (fieldNode name fields) = view (fieldNode name others)) :
    fields.map (fun field => (field.1, view field.2)) =
      others.map fun field => (field.1, view field.2) := by
  have mem_of_mem : ∀ {fields others : List (String × Node)},
      fields.Pairwise (fun f g => f.1 < g.1) → (∀ field ∈ fields, field.2 ≠ .void) →
      (∀ name, view (fieldNode name fields) = view (fieldNode name others)) →
      ∀ x ∈ fields.map (fun field => (field.1, view field.2)),
        x ∈ others.map fun field => (field.1, view field.2) := by
    intro fields others hfields hvoid h x hx
    obtain ⟨field, hfield, rfl⟩ := List.mem_map.mp hx
    have hnode := h field.1
    rw [fieldNode_of_mem (nodup_names_of_pairwise hfields) hfield] at hnode
    rcases fieldNode_eq_void_or_mem field.1 others with hnone | hmem
    · rw [hnone] at hnode
      exact absurd (hview hnode) (hvoid field hfield)
    · exact List.mem_map.mpr ⟨_, hmem, Prod.ext rfl hnode.symm⟩
  have asymm : ∀ x y : String × β, x.1 < y.1 → ¬ y.1 < x.1 := by
    intro x y hxy hyx
    exact String.lt_asymm hxy hyx
  exact eq_of_pairwise_of_mem_iff asymm (List.pairwise_map.mpr hfields)
    (List.pairwise_map.mpr hothers)
    fun x => ⟨mem_of_mem hfields hvoid h x,
      mem_of_mem hothers hvoid' (fun name => (h name).symm) x⟩

/-- Fields in order are determined by the nodes that they give to names. -/
theorem eq_of_fieldNode_eq {fields others : List (String × Node)}
    (hfields : fields.Pairwise fun f g => f.1 < g.1)
    (hothers : others.Pairwise fun f g => f.1 < g.1)
    (hvoid : ∀ field ∈ fields, field.2 ≠ .void) (hvoid' : ∀ field ∈ others, field.2 ≠ .void)
    (h : ∀ name, fieldNode name fields = fieldNode name others) : fields = others := by
  have heq := map_fields_eq (fun hnode => hnode) hfields hothers hvoid hvoid' h
  rwa [List.map_id', List.map_id'] at heq

end Node

end RecordSchema
