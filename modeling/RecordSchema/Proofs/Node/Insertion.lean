import RecordSchema.Proofs.Node.Indistinguishable
import RecordSchema.Proofs.Node.Semilattice
import RecordSchema.Proofs.Node.Totality

/-!
# Joining alternatives

A node that joins the alternatives of a union is merged with the alternative of its family, or
becomes one itself if there is none, and the alternatives of all other families stay as they are.
The alternative that it is merged with may change its kind, from integers to floating-point
numbers or from binary data to strings, and so its place; its family it keeps.

So what several nodes make of a family is the merge of those that belong to it
(`pick_foldl_insertAlternative_merge`), and as far as merging does not depend on the order, neither
do the alternatives (`insertAlternative_pointwise`).
-/

namespace RecordSchema

namespace Node

variable {children : List Node} {node child : Node}

/-! ### Membership by families -/

/-- The members of a list of alternatives are those that are found under their families. -/
lemma Alternatives.mem_iff (h : Alternatives children) :
    child ∈ children ↔ child ≠ .void ∧ pick child.kind.family children = child := by
  constructor
  · intro hchild
    exact ⟨(h.alternative child hchild).1.1, pick_of_mem (nodup_families_iff.mpr h.apart) hchild⟩
  · rintro ⟨hvoid, hpick⟩
    rcases pick_eq_void_or_mem child.kind.family children with h | ⟨hmem, -⟩
    · exact absurd (hpick.symm.trans h) hvoid
    · exact hpick ▸ hmem

/-- Under the family of a node that joins stands its merge with what stood there before. -/
lemma pick_insertAlternative_self (h : (families children).Nodup) :
    pick node.kind.family (insertAlternative merge children node) =
      (pick node.kind.family children).merge node := by
  rw [pick_insertAlternative _ _ h, pick_cons, if_pos rfl]

/-- Under every other family stands what stood there before. -/
lemma pick_insertAlternative_of_ne {family : Kind} (h : (families children).Nodup)
    (hne : node.kind.family ≠ family) :
    pick family (insertAlternative merge children node) = pick family children := by
  rw [pick_insertAlternative _ _ h, pick_cons, if_neg hne, pick_nil, merge_void_right]

lemma ne_void_of_family_eq (hnode : node ≠ .void) (h : child.kind.family = node.kind.family) :
    child ≠ .void := by
  rintro rfl
  cases alike_of_family_eq h
  exact hnode rfl

/-! ### One node -/

/-- The alternatives of the family of a node that joins: its merge with what stood there before,
and nothing else. -/
lemma mem_insertAlternative_self (h : Alternatives children) (hnode : node.IsAlternative)
    (hchild : child.kind.family = node.kind.family) :
    child ∈ insertAlternative merge children node ↔
      child = (pick node.kind.family children).merge node := by
  have hnodup := nodup_families_iff.mpr h.apart
  rw [(h.insertAlternative keepsFamily_merge hnode).mem_iff, hchild,
    pick_insertAlternative_self hnodup]
  constructor
  · rintro ⟨-, heq⟩
    exact heq.symm
  · intro heq
    exact ⟨ne_void_of_family_eq hnode.1.1 hchild, heq.symm⟩

/-- The alternatives of the other families stay as they are. -/
lemma mem_insertAlternative_of_ne (h : Alternatives children) (hnode : node.IsAlternative)
    (hchild : child.kind.family ≠ node.kind.family) :
    child ∈ insertAlternative merge children node ↔ child ∈ children := by
  rw [(h.insertAlternative keepsFamily_merge hnode).mem_iff, h.mem_iff,
    pick_insertAlternative_of_ne (nodup_families_iff.mpr h.apart) (Ne.symm hchild)]

/-! ### Several nodes -/

lemma Alternatives.foldl_insertAlternative (h : Alternatives children) {nodes : List Node}
    (hnodes : ∀ node ∈ nodes, node.IsAlternative) :
    Alternatives (nodes.foldl (Node.insertAlternative merge) children) :=
  List.foldlRecOn nodes _ h fun _ hchildren node hnode =>
    hchildren.insertAlternative keepsFamily_merge (hnodes node hnode)

lemma canonical_foldl_insertAlternative (h : ∀ child ∈ children, child.Canonical)
    {nodes : List Node} (hnodes : ∀ node ∈ nodes, node.Canonical) :
    ∀ child ∈ nodes.foldl (insertAlternative merge) children, child.Canonical := by
  induction nodes generalizing children with
  | nil => exact h
  | cons node nodes ih =>
    obtain ⟨hnode, hnodes⟩ := List.forall_mem_cons.mp hnodes
    exact ih (forall_mem_insertAlternative (fun _ _ => Canonical.merge) hnode h) hnodes

/-- What several nodes make of a family is the merge of those that belong to it. -/
lemma pick_foldl_insertAlternative_merge (family : Kind) (nodes : List Node)
    (h : (families children).Nodup) :
    pick family (nodes.foldl (insertAlternative merge) children) =
      (nodes.map fun node => pick family [node]).foldl merge (pick family children) := by
  induction nodes generalizing children with
  | nil => rfl
  | cons node nodes ih =>
    rw [List.foldl_cons, ih (nodup_families_insertAlternative node h),
      pick_insertAlternative family node h, List.map_cons, List.foldl_cons]

lemma isSchema_pick_of_mem {family : Kind} {nodes : List Node}
    (h : ∀ node ∈ nodes, node.Canonical) : (pick family nodes).IsSchema := by
  rcases pick_eq_void_or_mem family nodes with hvoid | ⟨hmem, -⟩
  · exact Or.inl hvoid
  · exact Or.inr (h _ hmem)

/-- The same nodes make the same alternatives, in whatever order they join and however often. -/
lemma dropZeroSigns_foldl_insertAlternative_eq (h : Alternatives children)
    (hcanonical : ∀ child ∈ children, child.Canonical) {nodes others : List Node}
    (hnodes : ∀ node ∈ nodes, node.Canonical ∧ node.IsAlternative)
    (hmem : ∀ node, node ∈ nodes ↔ node ∈ others) :
    (nodes.foldl (insertAlternative merge) children).map dropZeroSigns =
      (others.foldl (insertAlternative merge) children).map dropZeroSigns := by
  have hnodup := nodup_families_iff.mpr h.apart
  refine Alternatives.map_eq (fun hxy => ?_)
    (h.foldl_insertAlternative fun node hnode => (hnodes node hnode).2)
    (h.foldl_insertAlternative fun node hnode => (hnodes node ((hmem node).mpr hnode)).2)
    fun family => ?_
  · rw [← kind_dropZeroSigns, hxy, kind_dropZeroSigns]
  · rw [pick_foldl_insertAlternative_merge family nodes hnodup,
      pick_foldl_insertAlternative_merge family others hnodup]
    have hpicks : ∀ x, x ∈ nodes.map (fun node => pick family [node]) ↔
        x ∈ others.map fun node => pick family [node] := by
      intro x
      simp only [List.mem_map, hmem]
    refine dropZeroSigns_foldl_merge_eq (isSchema_pick_of_mem hcanonical) ?_
      (fun x hx => ⟨x, (hpicks x).mp hx, rfl⟩) fun x hx => ⟨x, (hpicks x).mpr hx, rfl⟩
    intro x hx
    obtain ⟨node, hnode, rfl⟩ := List.mem_map.mp hx
    exact isSchema_pick_of_mem (by simpa using (hnodes node hnode).1)

/-- Canonical nodes that are the same up to the signs of zeros, place by place, cannot be told
apart. -/
lemma forall₂_indistinguishable_of_map_eq {nodes others : List Node}
    (hnodes : ∀ node ∈ nodes, node.Canonical) (hothers : ∀ other ∈ others, other.Canonical)
    (h : nodes.map dropZeroSigns = others.map dropZeroSigns) :
    List.Forall₂ Indistinguishable nodes others := by
  induction nodes generalizing others with
  | nil =>
    obtain rfl := List.map_eq_nil_iff.mp h.symm
    exact .nil
  | cons node nodes ih =>
    obtain ⟨other, rest, rfl, hhead, htail⟩ := List.map_eq_cons_iff.mp h.symm
    obtain ⟨hnode, hnodes⟩ := List.forall_mem_cons.mp hnodes
    obtain ⟨hother, hrest⟩ := List.forall_mem_cons.mp hothers
    exact .cons (indistinguishable_of_dropZeroSigns_eq (Or.inr hnode) (Or.inr hother) hhead.symm)
      (ih hnodes hrest htail.symm)

/-! ### The law of joining -/

/-- Merging solid nodes with faults and without comes to the same. -/
lemma succeeds_merge : Succeeds tryMerge merge :=
  ⟨fun _ _ => Solid.tryMerge_eq_ok, fun _ _ => Solid.merge⟩

/-- A canonical node joins canonical alternatives of different families, none of which is null or a
union, without a fault.  The result has these properties again.  In the family of the node stands
its merge with what stood there before, or the node itself if nothing did, and all other families
stay as they are.  Several nodes make the same alternatives, up to the signs of zeros and so equal
in both directions, in whatever order they join and however often. -/
theorem insertAlternative_pointwise (h : Alternatives children)
    (hcanonical : ∀ child ∈ children, child.Canonical) (hnode : node.Canonical)
    (halternative : node.IsAlternative) :
    tryInsertAlternative tryMerge children node = .ok (insertAlternative merge children node) ∧
    Alternatives (insertAlternative merge children node) ∧
    (∀ child ∈ insertAlternative merge children node, child.Canonical) ∧
    (∀ old ∈ children, old.kind.family = node.kind.family →
      ∀ child, child.kind.family = node.kind.family →
        (child ∈ insertAlternative merge children node ↔ child = old.merge node)) ∧
    ((∀ old ∈ children, old.kind.family ≠ node.kind.family) →
      ∀ child, child.kind.family = node.kind.family →
        (child ∈ insertAlternative merge children node ↔ child = node)) ∧
    (∀ child, child.kind.family ≠ node.kind.family →
      (child ∈ insertAlternative merge children node ↔ child ∈ children)) ∧
    ∀ nodes others : List Node, (∀ node ∈ nodes, node.Canonical ∧ node.IsAlternative) →
      (∀ node, node ∈ nodes ↔ node ∈ others) →
      nodes.foldlM (tryInsertAlternative tryMerge) children =
          .ok (nodes.foldl (insertAlternative merge) children) ∧
        List.Forall₂ Indistinguishable (nodes.foldl (insertAlternative merge) children)
          (others.foldl (insertAlternative merge) children) := by
  have hsolid : ∀ child ∈ children, child.Solid := fun child hchild =>
    (hcanonical child hchild).solid
  refine ⟨succeeds_merge.insertAlternative hnode.solid hsolid,
    h.insertAlternative keepsFamily_merge halternative,
    forall_mem_insertAlternative (fun _ _ => Canonical.merge) hnode hcanonical, ?_, ?_,
    fun child hchild => mem_insertAlternative_of_ne h halternative hchild, ?_⟩
  · intro old hold hfamily child hchild
    rw [mem_insertAlternative_self h halternative hchild, ← hfamily,
      pick_of_mem (nodup_families_iff.mpr h.apart) hold]
  · intro hnone child hchild
    have habsent : node.kind.family ∉ families children := by
      intro hmem
      obtain ⟨old, hold, hfamily⟩ := List.mem_map.mp hmem
      exact hnone old hold hfamily
    rw [mem_insertAlternative_self h halternative hchild, pick_eq_void_of_notMem habsent,
      merge_void_left]
  · intro nodes others hnodes hmem
    have hcanonicals : ∀ node ∈ nodes, node.Canonical := fun node hnode => (hnodes node hnode).1
    have hsolids : ∀ node ∈ nodes, node.Solid := fun node hnode => (hcanonicals node hnode).solid
    refine ⟨succeeds_merge.foldl_insertAlternative hsolids hsolid, ?_⟩
    have heq := dropZeroSigns_foldl_insertAlternative_eq h hcanonical hnodes hmem
    have hleft := canonical_foldl_insertAlternative hcanonical hcanonicals
    have hright := canonical_foldl_insertAlternative hcanonical fun node hnode =>
      hcanonicals node ((hmem node).mpr hnode)
    exact forall₂_indistinguishable_of_map_eq hleft hright heq

/-- A negative zero makes floating-point numbers of the integers in front of it and leaves the
binary data alone.  With a string and a positive zero after it, or before it and twice, it comes to
the same. -/
theorem insertAlternative_pointwise_zeros :
    floating (.number true 0) (.ofInt 5) ∈
      insertAlternative merge [integer 3 5, binary] (floating (.number true 0) (.number true 0)) ∧
    binary ∈
      insertAlternative merge [integer 3 5, binary] (floating (.number true 0) (.number true 0)) ∧
    List.Forall₂ Indistinguishable
      ([floating (.number true 0) (.number true 0), string,
        floating (.number false 0) (.number false 0)].foldl (insertAlternative merge)
          [integer 3 5, binary])
      ([floating (.number false 0) (.number false 0), string, string,
        floating (.number true 0) (.number true 0)].foldl (insertAlternative merge)
          [integer 3 5, binary]) := by
  have hmem : ∀ x y node : Node, node ∈ [x, string, y] ↔ node ∈ [y, string, string, x] := by
    intro x y node
    simp only [List.mem_cons, List.not_mem_nil, or_false]
    tauto
  have hchildren : Alternatives [integer 3 5, binary] := by decide
  have hcanonical : ∀ child ∈ [integer 3 5, binary], child.Canonical := by decide
  have hnode : (floating (.number true 0) (.number true 0)).Canonical := by decide
  have hmin : (Double.number true 0).min (.ofInt 3) = .number true 0 := by decide +kernel
  have hmax : (Double.number true 0).max (.ofInt 5) = .ofInt 5 := by decide +kernel
  have hmerge : (integer 3 5).merge (floating (.number true 0) (.number true 0)) =
      floating (.number true 0) (.ofInt 5) := by
    rw [merge_integer_floating, hmin, hmax]
  obtain ⟨-, -, -, hold, -, hother, hseveral⟩ :=
    insertAlternative_pointwise hchildren hcanonical hnode (by decide)
  have hjoined := hold (integer 3 5) List.mem_cons_self rfl
    (floating (.number true 0) (.ofInt 5)) rfl
  exact ⟨hjoined.mpr hmerge.symm, (hother binary (by decide)).mpr (by simp),
    (hseveral _ _ (by decide) (hmem _ _)).2⟩

end Node

end RecordSchema
