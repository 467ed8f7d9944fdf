import RecordSchema.Proofs.Node.Canonical

/-!
# Merging keeps the canonical form

Every rule of merging gives a node in canonical form again: the fields of two structs are put in
order with each name once, and an alternative that changes its kind when it is combined stays in
its family, so that the alternatives still differ in their families and can be put in order.

The main statement is `CanonicalWith.merge`.  It holds for any condition on the shapes of structs
that the union of shapes keeps.
-/

namespace RecordSchema

namespace Node

variable {combine : Node → Node → Node}

/-! ### Fields -/

/-- The names of fields. -/
def names (fields : List (String × Node)) : List String := fields.map Prod.fst

@[simp] lemma names_nil : names [] = [] := rfl

@[simp] lemma names_cons (field : String × Node) (fields : List (String × Node)) :
    names (field :: fields) = field.1 :: names fields := rfl

lemma names_absorbField (name : String) (node : Node) (fields : List (String × Node)) :
    names (absorbField combine name node fields) =
      if name ∈ names fields then names fields else names fields ++ [name] := by
  induction fields with
  | nil => simp [absorbField]
  | cons field fields ih =>
    rw [absorbField_cons]
    by_cases hname : field.1 = name
    · simp [hname]
    · rw [if_neg hname, names_cons, ih]
      by_cases hmem : name ∈ names fields <;> simp [hmem, Ne.symm hname]

lemma nodup_names_absorbField (name : String) (node : Node) {fields : List (String × Node)}
    (h : (names fields).Nodup) : (names (absorbField combine name node fields)).Nodup := by
  rw [names_absorbField]
  split
  · exact h
  · next hmem =>
    refine List.nodup_append.mpr ⟨h, List.nodup_singleton _, ?_⟩
    rintro label hlabel _ hname rfl
    exact hmem (List.mem_singleton.mp hname ▸ hlabel)

lemma nodup_names_mergeFields {left : List (String × Node)} (h : (names left).Nodup)
    (right : List (String × Node)) : (names (mergeFields combine left right)).Nodup := by
  induction right generalizing left with
  | nil => exact h
  | cons field right ih => exact ih (nodup_names_absorbField field.1 field.2 h)

/-- Sorting fields of different names puts the names in strictly increasing order. -/
lemma pairwise_sortFields {fields : List (String × Node)} (h : (names fields).Nodup) :
    (sortFields fields).Pairwise fun f g => f.1 < g.1 := by
  have hsorted : (sortFields fields).Pairwise fun f g => decide (f.1 ≤ g.1) := by
    exact pairwise_sortBy (fun f g => by simpa using String.le_total f.1 g.1)
      (fun f g k => by simpa using String.le_trans) fields
  have hperm : (sortFields fields).Perm fields := perm_sortBy _ fields
  have hdistinct : (sortFields fields).Pairwise fun f g => f.1 ≠ g.1 :=
    List.pairwise_map.mp ((hperm.map Prod.fst).nodup_iff.mpr h)
  refine (hsorted.and hdistinct).imp ?_
  rintro f g ⟨hle, hne⟩
  exact String.not_le.mp fun hge => hne (String.le_antisymm (by simpa using hle) hge)

lemma nodup_names_of_pairwise {fields : List (String × Node)}
    (h : fields.Pairwise fun f g => f.1 < g.1) : (names fields).Nodup := by
  refine List.pairwise_map.mpr (h.imp ?_)
  rintro f g hlt heq
  exact String.lt_irrefl _ (heq ▸ hlt)

/-! ### What holds of all parts -/

section Parts

variable {P : Node → Prop} (h : ∀ a b, P a → P b → P (combine a b))
include h

lemma forall_mem_absorb {node : Node} (hnode : P node) {children : List Node}
    (hchildren : ∀ child ∈ children, P child) :
    ∀ other ∈ absorb combine node children, P other := by
  intro other hother
  rcases mem_absorb hother with rfl | hother | ⟨child, hchild, -, rfl⟩
  · exact hnode
  · exact hchildren other hother
  · exact h child node (hchildren child hchild) hnode

lemma forall_mem_insertAlternative {node : Node} (hnode : P node) {children : List Node}
    (hchildren : ∀ child ∈ children, P child) :
    ∀ other ∈ insertAlternative combine children node, P other := by
  intro other hother
  exact forall_mem_absorb h hnode hchildren other (mem_sortBy.mp hother)

lemma forall_mem_absorbField {name : String} {node : Node} (hnode : P node)
    {fields : List (String × Node)} (hfields : ∀ field ∈ fields, P field.2) :
    ∀ field ∈ absorbField combine name node fields, P field.2 := by
  induction fields with
  | nil => simpa [absorbField] using hnode
  | cons head fields ih =>
    obtain ⟨hhead, htail⟩ := List.forall_mem_cons.mp hfields
    rw [absorbField_cons]
    split
    · exact List.forall_mem_cons.mpr ⟨h _ _ hhead hnode, htail⟩
    · exact List.forall_mem_cons.mpr ⟨hhead, ih htail⟩

lemma forall_mem_mergeFields {left right : List (String × Node)}
    (hleft : ∀ field ∈ left, P field.2) (hright : ∀ field ∈ right, P field.2) :
    ∀ field ∈ mergeFields combine left right, P field.2 := by
  induction right generalizing left with
  | nil => exact hleft
  | cons field right ih =>
    obtain ⟨hfield, hright⟩ := List.forall_mem_cons.mp hright
    exact ih (forall_mem_absorbField h hfield hleft) hright

end Parts

/-! ### One level -/

variable {Seen : ShapeSet → Prop}

/-- A way to combine nodes that keeps the canonical form and the family. -/
structure KeepsForm (Seen : ShapeSet → Prop) (combine : Node → Node → Node) : Prop where
  canonical : ∀ a b, CanonicalWith Seen a → CanonicalWith Seen b →
    CanonicalWith Seen (combine a b)
  family : KeepsFamily combine

namespace KeepsForm

variable (h : KeepsForm Seen combine)
include h

/-- A union keeps its form when an alternative joins it. -/
lemma insertAlternative {children : List Node} (hunion : CanonicalWith Seen (.union children))
    {node : Node} (hnode : CanonicalWith Seen node) (halternative : node.IsAlternative) :
    CanonicalWith Seen (.union (insertAlternative combine children node)) := by
  cases hunion with
  | union two alternatives canonical =>
    exact .union (two.trans (length_le_length_insertAlternative children node))
      (alternatives.insertAlternative h.family halternative)
      (forall_mem_insertAlternative h.canonical hnode canonical)

/-- A union keeps its form when several alternatives join it one after the other. -/
lemma foldl_insertAlternative {others : List Node} (hothers : ∀ other ∈ others,
    CanonicalWith Seen other) (halternative : ∀ other ∈ others, other.IsAlternative)
    {children : List Node} (hunion : CanonicalWith Seen (.union children)) :
    CanonicalWith Seen (.union (others.foldl (Node.insertAlternative combine) children)) := by
  induction others generalizing children with
  | nil => exact hunion
  | cons node others ih =>
    -- the union that the first of them has joined is the one that the others join
    obtain ⟨hnode, hothers⟩ := List.forall_mem_cons.mp hothers
    obtain ⟨hsimple, halternative⟩ := List.forall_mem_cons.mp halternative
    exact ih hothers halternative (h.insertAlternative hunion hnode hsimple)

lemma unite {a b : Node} (ha : CanonicalWith Seen a) (hb : CanonicalWith Seen b)
    (hpresent : a.IsPresent) (hpresent' : b.IsPresent) (hfamily : a.kind.family ≠ b.kind.family) :
    CanonicalWith Seen (unite combine a b) := by
  by_cases hunion : a.kind = .union
  · obtain ⟨children, rfl⟩ := eq_union_of_kind hunion
    refine h.insertAlternative ha hb ⟨hpresent', fun hkind => hfamily ?_⟩
    rw [hunion, hkind]
  by_cases hunion' : b.kind = .union
  · obtain ⟨children, rfl⟩ := eq_union_of_kind hunion'
    rw [unite_union_right hunion]
    exact h.insertAlternative hb ha ⟨hpresent, hunion⟩
  · rw [unite_of_kind_ne_union hunion hunion']
    have hmem : ∀ other ∈ [a, b], other = a ∨ other = b := by simp
    have htwo : (sortAlternatives [a, b]).length = 2 := length_sortBy _ _
    refine .union htwo.ge (alternatives_sortAlternatives ?_ ?_) ?_
    · simpa using hfamily
    · intro other hother
      rcases hmem other hother with rfl | rfl
      · exact ⟨hpresent, hunion⟩
      · exact ⟨hpresent', hunion'⟩
    · intro other hother
      rcases hmem other (mem_sortBy.mp hother) with rfl | rfl
      · exact ha
      · exact hb

/-- Within a family: bounds stay in order, and structs, lists and unions keep their form. -/
lemma mergeLevel_of_alike (hSeen : ∀ s t, Seen s → Seen t → Seen (s.union t)) {a b : Node}
    (hab : Alike a b) (ha : CanonicalWith Seen a) (hb : CanonicalWith Seen b) :
    CanonicalWith Seen (Node.mergeLevel combine a b) := by
  cases hab with
  | void => cases ha
  | null | boolean | strings | binaries | timestamp => exact ha
  | stringBinary | binaryString => exact .string
  | integers =>
    cases ha with
    | integer lower ordered upper =>
      cases hb with
      | integer lower' ordered' upper' =>
        exact .integer (le_min lower lower') ((min_le_left _ _).trans (ordered.trans
          (le_max_left _ _))) (max_le upper upper')
  | floatings =>
    cases ha with
    | floating ordered =>
      cases hb with
      | floating ordered' => exact .floating (ordered.widen ordered')
  | integerFloating =>
    cases ha with
    | integer _ ordered _ =>
      cases hb with
      | floating ordered' => exact .floating (ordered'.widen (Double.atMost_ofInt ordered))
  | floatingInteger =>
    cases ha with
    | floating ordered =>
      cases hb with
      | integer _ ordered' _ => exact .floating (ordered.widen (Double.atMost_ofInt ordered'))
  | structs =>
    cases ha with
    | struct increasing seen canonical =>
      cases hb with
      | struct _ seen' canonical' =>
        refine .struct (pairwise_sortFields (nodup_names_mergeFields
          (nodup_names_of_pairwise increasing) _)) (hSeen _ _ seen seen') fun field hfield => ?_
        exact forall_mem_mergeFields h.canonical canonical canonical' field (mem_sortBy.mp hfield)
  | lists =>
    cases ha with
    | list canonical =>
      cases hb with
      | list canonical' => exact .list (h.canonical _ _ canonical canonical')
  | unions =>
    cases hb with
    | union _ alternatives canonical =>
      exact h.foldl_insertAlternative canonical alternatives.alternative ha

lemma mergeLevel (hSeen : ∀ s t, Seen s → Seen t → Seen (s.union t)) {a b : Node}
    (ha : CanonicalWith Seen a) (hb : CanonicalWith Seen b) :
    CanonicalWith Seen (Node.mergeLevel combine a b) := by
  -- an absent node is not canonical, and a null gives way to the other side
  rcases eq_void_or_eq_null_or_isPresent a with rfl | rfl | hpresent
  · cases ha
  · rwa [mergeLevel_null_left hb.ne_void]
  rcases eq_void_or_eq_null_or_isPresent b with rfl | rfl | hpresent'
  · cases hb
  · rwa [mergeLevel_null_right ha.ne_void]
  by_cases hfamily : a.kind.family = b.kind.family
  · exact h.mergeLevel_of_alike hSeen (alike_of_family_eq hfamily) ha hb
  · rw [mergeLevel_of_family_ne hpresent hpresent' hfamily]
    exact h.unite ha hb hpresent hpresent' hfamily

end KeepsForm

/-! ### Merging -/

lemma keepsForm_mergeWithin (hSeen : ∀ s t, Seen s → Seen t → Seen (s.union t)) (depth : ℕ) :
    KeepsForm Seen (mergeWithin depth) := by
  refine ⟨?_, keepsFamily_mergeWithin depth⟩
  induction depth with
  | zero => exact fun a b ha _ => ha
  | succ depth ih =>
    intro a b ha hb
    exact KeepsForm.mergeLevel ⟨ih, keepsFamily_mergeWithin depth⟩ hSeen ha hb

/-- The merge of two nodes in canonical form is in canonical form. -/
theorem CanonicalWith.merge (hSeen : ∀ s t, Seen s → Seen t → Seen (s.union t)) {a b : Node}
    (ha : CanonicalWith Seen a) (hb : CanonicalWith Seen b) : CanonicalWith Seen (a.merge b) :=
  (keepsForm_mergeWithin hSeen _).canonical a b ha hb

lemma Canonical.merge {a b : Node} (ha : a.Canonical) (hb : b.Canonical) : (a.merge b).Canonical :=
  CanonicalWith.merge (fun _ _ _ _ => trivial) ha hb

lemma Recorded.merge {a b : Node} (ha : a.Recorded) (hb : b.Recorded) : (a.merge b).Recorded :=
  CanonicalWith.merge (fun _ t hs _ => ShapeSet.union_ne_nil t hs) ha hb

end Node

end RecordSchema
