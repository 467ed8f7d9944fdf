import RecordSchema.Proofs.Node.Algebra

/-!
# Schemas as a semilattice

The schemas without signed zeros form a join-semilattice.  Merging is the join, one schema is below
another if merging it into the other changes nothing, and the absent node is at the bottom.

The merge of many schemas is therefore their least upper bound.  It depends only on which schemas
there are, and neither on their order nor on how often each of them occurs
(`foldl_merge_eq_of_mem_iff`).
-/

namespace RecordSchema

/-- A join taken from the left is a least upper bound. -/
lemma isLUB_foldl_sup {α : Type} [SemilatticeSup α] (start : α) (xs : List α) :
    IsLUB {x | x = start ∨ x ∈ xs} (xs.foldl (· ⊔ ·) start) := by
  induction xs generalizing start with
  | nil =>
    have hset : {x | x = start ∨ x ∈ ([] : List α)} = {start} := by
      ext x
      simp
    rw [hset]
    exact isLUB_singleton
  | cons y xs ih =>
    obtain ⟨hupper, hleast⟩ := ih (start ⊔ y)
    have hjoin : start ⊔ y ≤ xs.foldl (· ⊔ ·) (start ⊔ y) := hupper (Or.inl rfl)
    refine ⟨?_, fun z hz => hleast ?_⟩
    · rintro x (rfl | hx)
      · exact le_sup_left.trans hjoin
      · rcases List.mem_cons.mp hx with rfl | hx
        · exact le_sup_right.trans hjoin
        · exact hupper (Or.inr hx)
    · rintro x (rfl | hx)
      · exact sup_le (hz (Or.inl rfl)) (hz (Or.inr List.mem_cons_self))
      · exact hz (Or.inr (List.mem_cons_of_mem _ hx))

namespace Node

/-- The schemas without signed zeros. -/
abbrev PlainNode := {node : Node // Plain node}

namespace PlainNode

instance : Max PlainNode := ⟨fun a b => ⟨a.1.merge b.1, a.2.merge b.2⟩⟩

instance : SemilatticeSup PlainNode :=
  SemilatticeSup.mk' (fun a b => Subtype.ext (a.2.merge_comm b.2))
    (fun a b c => Subtype.ext (a.2.merge_assoc b.2 c.2)) (fun a => Subtype.ext a.2.merge_self)

instance : OrderBot PlainNode where
  bot := ⟨.void, .void⟩
  bot_le a := Subtype.ext (merge_void_left a.1)

@[simp] lemma coe_sup (a b : PlainNode) : ((a ⊔ b : PlainNode) : Node) = a.1.merge b.1 := rfl

lemma coe_foldl_sup (start : PlainNode) (nodes : List PlainNode) :
    (nodes.foldl (· ⊔ ·) start : PlainNode).1 =
      (nodes.map Subtype.val).foldl merge start.1 := by
  induction nodes generalizing start with
  | nil => rfl
  | cons node nodes ih => rw [List.foldl_cons, ih, List.map_cons, List.foldl_cons, coe_sup]

end PlainNode

/-- The merge of schemas without signed zeros depends only on which of them there are. -/
theorem foldl_merge_eq_of_mem_iff {start : Node} (hstart : Plain start) {nodes others : List Node}
    (hnodes : ∀ node ∈ nodes, Plain node) (hmem : ∀ node, node ∈ nodes ↔ node ∈ others) :
    nodes.foldl merge start = others.foldl merge start := by
  have hothers : ∀ node ∈ others, Plain node :=
    fun node hnode => hnodes node ((hmem node).mpr hnode)
  lift start to PlainNode using hstart
  lift nodes to List PlainNode using hnodes
  lift others to List PlainNode using hothers
  rw [← PlainNode.coe_foldl_sup, ← PlainNode.coe_foldl_sup]
  -- the two lists have the same members, so their joins are least upper bounds of one set
  have hset : {node | node = start ∨ node ∈ nodes} = {node | node = start ∨ node ∈ others} := by
    ext node
    have hnode := hmem node.1
    rw [List.mem_map_of_injective Subtype.val_injective,
      List.mem_map_of_injective Subtype.val_injective] at hnode
    exact or_congr_right hnode
  have hlub := isLUB_foldl_sup start nodes
  rw [hset] at hlub
  exact congrArg Subtype.val (hlub.unique (isLUB_foldl_sup start others))

lemma dropZeroSigns_foldl_merge (start : Node) (nodes : List Node) :
    (nodes.foldl merge start).dropZeroSigns =
      (nodes.map dropZeroSigns).foldl merge start.dropZeroSigns := by
  induction nodes generalizing start with
  | nil => rfl
  | cons node nodes ih =>
    rw [List.foldl_cons, ih, dropZeroSigns_merge, List.map_cons, List.foldl_cons]

/-- The merge of schemas depends only on which of them there are, up to the signs of zeros. -/
theorem dropZeroSigns_foldl_merge_eq {start : Node} (hstart : start.IsSchema)
    {nodes others : List Node} (hnodes : ∀ node ∈ nodes, node.IsSchema)
    (forth : ∀ node ∈ nodes, ∃ other ∈ others, node.dropZeroSigns = other.dropZeroSigns)
    (back : ∀ other ∈ others, ∃ node ∈ nodes, node.dropZeroSigns = other.dropZeroSigns) :
    (nodes.foldl merge start).dropZeroSigns = (others.foldl merge start).dropZeroSigns := by
  rw [dropZeroSigns_foldl_merge, dropZeroSigns_foldl_merge]
  refine foldl_merge_eq_of_mem_iff (Plain.of_isSchema hstart) ?_ fun plain => ⟨?_, ?_⟩
  · intro plain hplain
    obtain ⟨node, hnode, rfl⟩ := List.mem_map.mp hplain
    exact Plain.of_isSchema (hnodes node hnode)
  · intro hplain
    obtain ⟨node, hnode, rfl⟩ := List.mem_map.mp hplain
    obtain ⟨other, hother, heq⟩ := forth node hnode
    exact heq ▸ List.mem_map_of_mem hother
  · intro hplain
    obtain ⟨other, hother, rfl⟩ := List.mem_map.mp hplain
    obtain ⟨node, hnode, heq⟩ := back other hother
    exact heq ▸ List.mem_map_of_mem hnode

end Node

end RecordSchema
