import RecordSchema.Node.Merge

/-!
# The depth of merging

Merging is closed by a bound for its depth, and the bound is always enough: `merge_eq_mergeLevel`
says that a merge is one level of merging with the merge itself for the parts.

The size of a merge does not exceed the sizes of the two nodes by more than the one level that a
new union adds, and not at all if the nodes are of one family.  So whatever a level merges, parts
that have been merged before included, is smaller than what the level itself merges.
-/

namespace RecordSchema

namespace Node

/-! ### Sizes -/

theorem size_pos (node : Node) : 0 < node.size := by
  cases node <;> unfold size <;> omega

theorem sizeOfAll_perm {as bs : List Node} (h : as.Perm bs) : sizeOfAll as = sizeOfAll bs := by
  induction h with
  | nil => rfl
  | cons _ _ ih => simp [sizeOfAll, ih]
  | swap => simp [sizeOfAll]; omega
  | trans _ _ ih₁ ih₂ => exact ih₁.trans ih₂

theorem sizeOfFields_perm {fs gs : List (String × Node)} (h : fs.Perm gs) :
    sizeOfFields fs = sizeOfFields gs := by
  induction h with
  | nil => rfl
  | cons _ _ ih => simp [sizeOfFields, ih]
  | swap => simp [sizeOfFields]; omega
  | trans _ _ ih₁ ih₂ => exact ih₁.trans ih₂

@[simp] theorem sizeOfAll_sortAlternatives (children : List Node) :
    sizeOfAll (sortAlternatives children) = sizeOfAll children :=
  sizeOfAll_perm (perm_sortBy _ _)

@[simp] theorem sizeOfFields_sortFields (fields : List (String × Node)) :
    sizeOfFields (sortFields fields) = sizeOfFields fields :=
  sizeOfFields_perm (perm_sortBy _ _)

/-! ### What a way to combine nodes does to sizes -/

/-- Below a joint size, combining adds at most one level, and none within a family. -/
structure Bounded (bound : Nat) (combine : Node → Node → Node) : Prop where
  size_le : ∀ a b, a.size + b.size < bound → (combine a b).size ≤ a.size + b.size + 1
  size_le_of_family : ∀ a b, a.size + b.size < bound → a.kind.family = b.kind.family →
    (combine a b).size ≤ a.size + b.size

variable {bound : Nat} {combine other : Node → Node → Node}

theorem Bounded.sizeOfAll_absorb (h : Bounded bound combine) (node : Node) :
    ∀ children : List Node, node.size + sizeOfAll children < bound →
      sizeOfAll (absorb combine node children) ≤ node.size + sizeOfAll children
  | [], _ => by simp [absorb, sizeOfAll]
  | child :: children, hlt => by
    simp only [sizeOfAll] at hlt
    unfold absorb
    split
    · next hfamily =>
      have := h.size_le_of_family child node (by omega) hfamily
      simp only [sizeOfAll]
      omega
    · have := h.sizeOfAll_absorb node children (by omega)
      simp only [sizeOfAll]
      omega

theorem Bounded.sizeOfAll_insertAlternative (h : Bounded bound combine) (children : List Node)
    (node : Node) (hlt : sizeOfAll children + node.size < bound) :
    sizeOfAll (insertAlternative combine children node) ≤ sizeOfAll children + node.size := by
  have := h.sizeOfAll_absorb node children (by omega)
  simp only [insertAlternative, sizeOfAll_sortAlternatives]
  omega

theorem Bounded.sizeOfAll_foldl (h : Bounded bound combine) :
    ∀ others children : List Node, sizeOfAll children + sizeOfAll others < bound →
      sizeOfAll (others.foldl (insertAlternative combine) children) ≤
        sizeOfAll children + sizeOfAll others
  | [], _, _ => by simp [sizeOfAll]
  | node :: others, children, hlt => by
    simp only [sizeOfAll] at hlt ⊢
    have hstep := h.sizeOfAll_insertAlternative children node (by omega)
    have := h.sizeOfAll_foldl others (insertAlternative combine children node) (by omega)
    simp only [List.foldl_cons]
    omega

theorem Bounded.sizeOfFields_absorbField (h : Bounded bound combine) (name : String)
    (node : Node) :
    ∀ fields : List (String × Node), node.size + sizeOfFields fields < bound →
      sizeOfFields (absorbField combine name node fields) ≤ 1 + node.size + sizeOfFields fields
  | [], _ => by simp [absorbField, sizeOfFields]
  | (label, old) :: fields, hlt => by
    simp only [sizeOfFields] at hlt
    unfold absorbField
    split
    · have := h.size_le old node (by omega)
      simp only [sizeOfFields]
      omega
    · have := h.sizeOfFields_absorbField name node fields (by omega)
      simp only [sizeOfFields]
      omega

theorem Bounded.sizeOfFields_mergeFields (h : Bounded bound combine) :
    ∀ right left : List (String × Node), sizeOfFields left + sizeOfFields right < bound →
      sizeOfFields (mergeFields combine left right) ≤ sizeOfFields left + sizeOfFields right
  | [], _, _ => by simp [mergeFields, sizeOfFields]
  | (name, node) :: right, left, hlt => by
    simp only [sizeOfFields] at hlt ⊢
    have hstep := h.sizeOfFields_absorbField name node left (by omega)
    have := h.sizeOfFields_mergeFields right (absorbField combine name node left) (by omega)
    simp only [mergeFields, List.foldl_cons] at this ⊢
    omega

/-- A union of nodes of different families adds one level, unless one of them is a union. -/
theorem Bounded.size_unite (a b : Node) (h : Bounded (a.size + b.size) combine) :
    (unite combine a b).size ≤ a.size + b.size + 1 := by
  unfold unite
  split
  · next children =>
    have := h.sizeOfAll_insertAlternative children b (by simp only [size]; omega)
    simp only [size]
    omega
  · next children _ =>
    have := h.sizeOfAll_insertAlternative children a (by simp only [size]; omega)
    simp only [size]
    omega
  · simp only [size, sizeOfAll_sortAlternatives, sizeOfAll]
    omega

/-- A level of merging keeps the bounds that its parts keep. -/
theorem Bounded.size_mergeLevel (a b : Node) (h : Bounded (a.size + b.size) combine) :
    (mergeLevel combine a b).size ≤ a.size + b.size + 1 ∧
      (a.kind.family = b.kind.family → (mergeLevel combine a b).size ≤ a.size + b.size) := by
  unfold mergeLevel
  split
  case h_9 fields shapes others otherShapes =>
    have := h.sizeOfFields_mergeFields others fields (by simp only [size]; omega)
    simp only [ofFields, size, sizeOfFields_sortFields]
    omega
  case h_10 element otherElement =>
    have := h.size_le element otherElement (by simp only [size]; omega)
    simp only [size]
    omega
  case h_11 children others =>
    have := h.sizeOfAll_foldl others children (by simp only [size]; omega)
    simp only [size]
    omega
  case h_12 hstruct hlist hunion =>
    split
    · omega
    · split
      · omega
      · split
        · omega
        · refine ⟨h.size_unite a b, fun hfamily => ?_⟩
          -- the two families of two kinds are merged above
          cases a <;> cases b <;> grind [kind, Kind.family]
  all_goals simp only [size]; omega

/-! ### Levels look at smaller parts only -/

/-- Two ways to combine nodes are the same below a joint size. -/
def AgreeBelow (bound : Nat) (combine other : Node → Node → Node) : Prop :=
  ∀ a b, a.size + b.size < bound → combine a b = other a b

theorem AgreeBelow.absorb_eq (heq : AgreeBelow bound combine other) (node : Node) :
    ∀ children : List Node, node.size + sizeOfAll children < bound →
      absorb combine node children = absorb other node children
  | [], _ => rfl
  | child :: children, hlt => by
    simp only [sizeOfAll] at hlt
    simp only [absorb, heq child node (by omega), heq.absorb_eq node children (by omega)]

theorem AgreeBelow.insertAlternative_eq (heq : AgreeBelow bound combine other)
    (children : List Node) (node : Node) (hlt : sizeOfAll children + node.size < bound) :
    insertAlternative combine children node = insertAlternative other children node := by
  simp only [insertAlternative, heq.absorb_eq node children (by omega)]

theorem AgreeBelow.foldl_eq (heq : AgreeBelow bound combine other)
    (h : Bounded bound combine) :
    ∀ others children : List Node, sizeOfAll children + sizeOfAll others < bound →
      others.foldl (insertAlternative combine) children =
        others.foldl (insertAlternative other) children
  | [], _, _ => rfl
  | node :: others, children, hlt => by
    simp only [sizeOfAll] at hlt
    have hstep := h.sizeOfAll_insertAlternative children node (by omega)
    simp only [List.foldl_cons]
    rw [heq.foldl_eq h others _ (by omega), heq.insertAlternative_eq children node (by omega)]

theorem AgreeBelow.absorbField_eq (heq : AgreeBelow bound combine other) (name : String)
    (node : Node) :
    ∀ fields : List (String × Node), node.size + sizeOfFields fields < bound →
      absorbField combine name node fields = absorbField other name node fields
  | [], _ => rfl
  | (label, old) :: fields, hlt => by
    simp only [sizeOfFields] at hlt
    simp only [absorbField, heq old node (by omega), heq.absorbField_eq name node fields (by omega)]

theorem AgreeBelow.mergeFields_eq (heq : AgreeBelow bound combine other)
    (h : Bounded bound combine) :
    ∀ right left : List (String × Node), sizeOfFields left + sizeOfFields right < bound →
      mergeFields combine left right = mergeFields other left right
  | [], _, _ => rfl
  | (name, node) :: right, left, hlt => by
    simp only [sizeOfFields] at hlt
    have hstep := h.sizeOfFields_absorbField name node left (by omega)
    have hrest := heq.mergeFields_eq h right (absorbField combine name node left) (by omega)
    simp only [mergeFields, List.foldl_cons] at hrest ⊢
    rw [hrest, heq.absorbField_eq name node left (by omega)]

theorem AgreeBelow.unite_eq (a b : Node) (heq : AgreeBelow (a.size + b.size) combine other) :
    unite combine a b = unite other a b := by
  unfold unite
  split
  · next children =>
    rw [heq.insertAlternative_eq children b (by simp only [size]; omega)]
  · next children _ =>
    rw [heq.insertAlternative_eq children a (by simp only [size]; omega)]
  · rfl

/-- A level of merging depends on smaller joint sizes only. -/
theorem AgreeBelow.mergeLevel_eq (a b : Node) (heq : AgreeBelow (a.size + b.size) combine other)
    (h : Bounded (a.size + b.size) combine) :
    mergeLevel combine a b = mergeLevel other a b := by
  unfold mergeLevel
  split
  case h_9 fields shapes others otherShapes =>
    rw [heq.mergeFields_eq h others fields (by simp only [size]; omega)]
  case h_10 element otherElement =>
    rw [heq element otherElement (by simp only [size]; omega)]
  case h_11 children others =>
    rw [heq.foldl_eq h others children (by simp only [size]; omega)]
  case h_12 => rw [heq.unite_eq a b]
  all_goals rfl

/-! ### The bound is enough -/

/-- Merging down to any depth keeps the bounds on sizes. -/
theorem bounded_mergeWithin (depth : Nat) : Bounded bound (mergeWithin depth) := by
  induction depth generalizing bound with
  | zero => constructor <;> intro a b _ <;> simp only [mergeWithin] <;> omega
  | succ depth ih =>
    constructor
    · intro a b _
      exact (ih.size_mergeLevel a b).1
    · intro a b _
      exact (ih.size_mergeLevel a b).2

/-- Two depths that are at least the joint size of two nodes give the same merge. -/
theorem mergeWithin_congr : ∀ (a b : Node) (depth more : Nat),
    a.size + b.size ≤ depth → a.size + b.size ≤ more →
      mergeWithin depth a b = mergeWithin more a b
  | a, b, 0, _, hle, _ => by have := a.size_pos; omega
  | a, b, _ + 1, 0, _, hle => by have := a.size_pos; omega
  | a, b, depth + 1, more + 1, hdepth, hmore => by
    have heq : AgreeBelow (a.size + b.size) (mergeWithin depth) (mergeWithin more) :=
      fun x y hlt => mergeWithin_congr x y depth more (by omega) (by omega)
    exact heq.mergeLevel_eq a b (bounded_mergeWithin depth)

/-- A merge is one level of merging, with the merge itself for the parts. -/
theorem merge_eq_mergeLevel (a b : Node) : a.merge b = mergeLevel merge a b := by
  obtain ⟨depth, hdepth⟩ : ∃ depth, a.size + b.size = depth + 1 :=
    ⟨a.size + b.size - 1, by have := a.size_pos; omega⟩
  have heq : AgreeBelow (a.size + b.size) (mergeWithin depth) merge :=
    fun x y hlt => mergeWithin_congr x y depth _ (by omega) (Nat.le_refl _)
  rw [merge, hdepth]
  exact heq.mergeLevel_eq a b (bounded_mergeWithin depth)

end Node

end RecordSchema
