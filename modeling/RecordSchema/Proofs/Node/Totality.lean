import RecordSchema.Node.CheckedMerge
import RecordSchema.Proofs.Node.Preservation
import RecordSchema.Proofs.Traversal

/-!
# Merging never stops on solid nodes

A merge that gives a node gives the merge, for any two nodes (`merge_eq_of_tryMerge`).  On solid
nodes it always does (`Solid.tryMerge_eq_ok`): no part of them is absent, so every alternative has a
kind, and the bounds of integers fit 64 bits, which is far below the largest double.  Solid nodes
may hold NaN and need not be in order; all canonical nodes are solid, so merging never stops on
schemas (`IsSchema.tryMerge_eq_ok`).

Both are shown for one level of merging first, with any two ways to combine the parts that agree
with each other, and then for every depth.
-/

namespace RecordSchema

namespace Node

variable {check : Node → Node → Except MergeFault Node} {combine : Node → Node → Node}

/-! ### One level, case by case -/

lemma tryMergeLevel_void_left (b : Node) : tryMergeLevel check .void b = .ok b := rfl

lemma tryMergeLevel_void_right (a : Node) : tryMergeLevel check a .void = .ok a := by
  cases a <;> rfl

lemma tryMergeLevel_null_left {b : Node} (h : b ≠ .void) : tryMergeLevel check .null b = .ok b := by
  cases b <;> first | rfl | exact absurd rfl h

lemma tryMergeLevel_null_right {a : Node} (h : a ≠ .void) :
    tryMergeLevel check a .null = .ok a := by
  cases a <;> first | rfl | exact absurd rfl h

lemma tryMergeLevel_of_family_ne {a b : Node} (ha : a.IsPresent) (hb : b.IsPresent)
    (h : a.kind.family ≠ b.kind.family) : tryMergeLevel check a b = tryUnite check a b := by
  obtain ⟨hvoid, hnull⟩ := ha
  obtain ⟨hvoid', hnull'⟩ := hb
  cases a <;> cases b <;> first | contradiction | rfl

lemma tryUnite_union_right {a : Node} (ha : a.kind ≠ .union) (children : List Node) :
    tryUnite check a (.union children) =
      (tryInsertAlternative check children a >>= fun joined => .ok (.union joined)) := by
  cases a <;> first | rfl | exact absurd rfl ha

lemma tryUnite_of_kind_ne_union {a b : Node} (ha : a.kind ≠ .union) (hb : b.kind ≠ .union) :
    tryUnite check a b = .ok (.union (sortAlternatives [a, b])) := by
  cases a <;> cases b <;> first | rfl | exact absurd rfl ha | exact absurd rfl hb

lemma tryAbsorb_cons (node child : Node) (children : List Node) :
    tryAbsorb check node (child :: children) =
      if child.kind = .void ∨ node.kind = .void then .error .absentAlternative
      else if child.kind.family = node.kind.family then
        check child node >>= fun merged => .ok (merged :: children)
      else tryAbsorb check node children >>= fun rest => .ok (child :: rest) := rfl

lemma tryAbsorbField_cons (name : String) (node : Node) (field : String × Node)
    (fields : List (String × Node)) :
    tryAbsorbField check name node (field :: fields) =
      if field.1 = name then
        check field.2 node >>= fun merged => .ok ((field.1, merged) :: fields)
      else tryAbsorbField check name node fields >>= fun rest => .ok (field :: rest) := rfl

lemma tryMergeFields_cons (left : List (String × Node)) (field : String × Node)
    (right : List (String × Node)) :
    tryMergeFields check left (field :: right) =
      tryAbsorbField check field.1 field.2 left >>= fun fields =>
        tryMergeFields check fields right := rfl

/-! ### A merge that gives a node -/

/-- A checked way to combine nodes gives only what the unchecked way gives. -/
def Refines (check : Node → Node → Except MergeFault Node) (combine : Node → Node → Node) : Prop :=
  ∀ a b c, check a b = .ok c → combine a b = c

namespace Refines

variable (h : Refines check combine)
include h

lemma absorbField {name : String} {node : Node} {fields merged : List (String × Node)}
    (hok : tryAbsorbField check name node fields = .ok merged) :
    Node.absorbField combine name node fields = merged := by
  induction fields generalizing merged with
  | nil =>
    cases hok
    rfl
  | cons field fields ih =>
    rw [tryAbsorbField_cons] at hok
    rw [absorbField_cons]
    by_cases hname : field.1 = name
    · rw [if_pos hname] at hok
      obtain ⟨result, hresult, hok⟩ := bind_eq_ok_iff.mp hok
      cases hok
      rw [if_pos hname, h _ _ _ hresult]
    · rw [if_neg hname] at hok
      obtain ⟨result, hresult, hok⟩ := bind_eq_ok_iff.mp hok
      cases hok
      rw [if_neg hname, ih hresult]

lemma mergeFields {left right merged : List (String × Node)}
    (hok : tryMergeFields check left right = .ok merged) :
    Node.mergeFields combine left right = merged := by
  induction right generalizing left with
  | nil =>
    cases hok
    rfl
  | cons field right ih =>
    rw [tryMergeFields_cons, bind_eq_ok_iff] at hok
    obtain ⟨fields, hfields, hok⟩ := hok
    rw [mergeFields_cons, h.absorbField hfields, ih hok]

lemma absorb {node : Node} {children merged : List Node}
    (hok : tryAbsorb check node children = .ok merged) :
    Node.absorb combine node children = merged := by
  induction children generalizing merged with
  | nil =>
    cases hok
    rfl
  | cons child children ih =>
    rw [tryAbsorb_cons] at hok
    rw [absorb_cons]
    split at hok
    · cases hok
    by_cases hfamily : child.kind.family = node.kind.family
    · rw [if_pos hfamily] at hok
      obtain ⟨result, hresult, hok⟩ := bind_eq_ok_iff.mp hok
      cases hok
      rw [if_pos hfamily, h _ _ _ hresult]
    · rw [if_neg hfamily] at hok
      obtain ⟨result, hresult, hok⟩ := bind_eq_ok_iff.mp hok
      cases hok
      rw [if_neg hfamily, ih hresult]

lemma insertAlternative {node : Node} {children merged : List Node}
    (hok : tryInsertAlternative check children node = .ok merged) :
    Node.insertAlternative combine children node = merged := by
  obtain ⟨absorbed, habsorbed, hok⟩ := bind_eq_ok_iff.mp hok
  split at hok
  · cases hok
  · cases hok
    rw [Node.insertAlternative, h.absorb habsorbed]

lemma foldl_insertAlternative {others children merged : List Node}
    (hok : others.foldlM (tryInsertAlternative check) children = .ok merged) :
    others.foldl (Node.insertAlternative combine) children = merged := by
  induction others generalizing children with
  | nil =>
    cases hok
    rfl
  | cons node others ih =>
    rw [List.foldlM_cons] at hok
    obtain ⟨joined, hjoined, hok⟩ := bind_eq_ok_iff.mp hok
    rw [List.foldl_cons, h.insertAlternative hjoined]
    exact ih hok

lemma unite {a b c : Node} (hok : tryUnite check a b = .ok c) : Node.unite combine a b = c := by
  by_cases ha : a.kind = .union
  · obtain ⟨children, rfl⟩ := eq_union_of_kind ha
    obtain ⟨joined, hjoined, hok⟩ := bind_eq_ok_iff.mp hok
    cases hok
    rw [Node.unite, h.insertAlternative hjoined]
  by_cases hb : b.kind = .union
  · obtain ⟨children, rfl⟩ := eq_union_of_kind hb
    rw [tryUnite_union_right ha] at hok
    obtain ⟨joined, hjoined, hok⟩ := bind_eq_ok_iff.mp hok
    cases hok
    rw [unite_union_right ha, h.insertAlternative hjoined]
  · rw [tryUnite_of_kind_ne_union ha hb] at hok
    cases hok
    rw [unite_of_kind_ne_union ha hb]

omit h in
lemma boundToDouble {bound : ℤ} {x : Double} (hok : Node.boundToDouble bound = .ok x) :
    .ofInt bound = x := by
  unfold Node.boundToDouble at hok
  split at hok
  · cases hok
  · cases hok
    rfl

omit h in
lemma widen {min max : Double} {lower upper : ℤ} {c : Node}
    (hok : tryWiden min max lower upper = .ok c) :
    .floating (min.min (.ofInt lower)) (max.max (.ofInt upper)) = c := by
  obtain ⟨least, hleast, hok⟩ := bind_eq_ok_iff.mp hok
  obtain ⟨greatest, hgreatest, hok⟩ := bind_eq_ok_iff.mp hok
  cases hok
  rw [boundToDouble hleast, boundToDouble hgreatest]

lemma mergeLevel_of_alike {a b c : Node} (hab : Alike a b)
    (hok : tryMergeLevel check a b = .ok c) : Node.mergeLevel combine a b = c := by
  cases hab with
  | integerFloating | floatingInteger => exact widen hok
  | structs =>
    obtain ⟨fields, hfields, hok⟩ := bind_eq_ok_iff.mp hok
    cases hok
    rw [Node.mergeLevel, h.mergeFields hfields]
  | lists =>
    obtain ⟨element, helement, hok⟩ := bind_eq_ok_iff.mp hok
    cases hok
    rw [Node.mergeLevel, h _ _ _ helement]
  | unions =>
    obtain ⟨children, hchildren, hok⟩ := bind_eq_ok_iff.mp hok
    cases hok
    rw [Node.mergeLevel, h.foldl_insertAlternative hchildren]
  | _ =>
    cases hok
    rfl

lemma mergeLevel {a b c : Node} (hok : tryMergeLevel check a b = .ok c) :
    Node.mergeLevel combine a b = c := by
  -- both definitions divide into the same cases, so each one is opened in the same way
  rcases eq_void_or_eq_null_or_isPresent a with rfl | rfl | ha
  · cases hok
    rfl
  · by_cases hb : b = .void
    · subst hb
      cases hok
      rfl
    · rw [tryMergeLevel_null_left hb] at hok
      cases hok
      rw [mergeLevel_null_left hb]
  rcases eq_void_or_eq_null_or_isPresent b with rfl | rfl | hb
  · rw [tryMergeLevel_void_right] at hok
    cases hok
    rw [mergeLevel_void_right]
  · rw [tryMergeLevel_null_right ha.1] at hok
    cases hok
    rw [mergeLevel_null_right ha.1]
  by_cases hfamily : a.kind.family = b.kind.family
  · exact h.mergeLevel_of_alike (alike_of_family_eq hfamily) hok
  · rw [tryMergeLevel_of_family_ne ha hb hfamily] at hok
    rw [mergeLevel_of_family_ne ha hb hfamily]
    exact h.unite hok

end Refines

lemma refines_mergeWithin (depth : ℕ) : Refines (tryMergeWithin depth) (mergeWithin depth) := by
  induction depth with
  | zero =>
    intro a b c hok
    cases hok
    rfl
  | succ depth ih => exact fun a b c hok => ih.mergeLevel hok

/-- A merge that does not stop gives the merge. -/
theorem merge_eq_of_tryMerge {a b c : Node} (h : a.tryMerge b = .ok c) : a.merge b = c :=
  refines_mergeWithin _ a b c h

/-! ### Solid nodes -/

/-- No part of the node is absent and all integers fit 64 bits, at every depth.  Bounds of
floating-point numbers may be NaN, and nothing is asked of the order of parts. -/
inductive Solid : Node → Prop
  | null : Solid .null
  | boolean : Solid .boolean
  | integer {min max : ℤ} (lower : minLong ≤ min) (upper : min ≤ maxLong) (lower' : minLong ≤ max)
      (upper' : max ≤ maxLong) : Solid (.integer min max)
  | floating (min max : Double) : Solid (.floating min max)
  | string : Solid .string
  | binary : Solid .binary
  | timestamp : Solid .timestamp
  | struct {fields : List (String × Node)} (shapes : ShapeSet)
      (solid : ∀ field ∈ fields, Solid field.2) : Solid (.struct fields shapes)
  | list {element : Node} (solid : Solid element) : Solid (.list element)
  | union {children : List Node} (solid : ∀ child ∈ children, Solid child) :
      Solid (.union children)

lemma Solid.ne_void {node : Node} (h : node.Solid) : node ≠ .void := by
  rintro rfl
  cases h

lemma CanonicalWith.solid {Seen : ShapeSet → Prop} {node : Node} (h : CanonicalWith Seen node) :
    node.Solid := by
  induction h with
  | integer lower ordered upper =>
    exact .integer lower (ordered.trans upper) (lower.trans ordered) upper
  | floating => exact .floating _ _
  | struct _ _ _ ih => exact .struct _ ih
  | list _ ih => exact .list ih
  | union _ _ _ ih => exact .union ih
  | null | boolean | string | binary | timestamp => constructor

section KeepsSolid

variable (h : ∀ a b, Solid a → Solid b → Solid (combine a b))
include h

lemma solid_foldl_insertAlternative {others : List Node} (hothers : ∀ other ∈ others, other.Solid)
    {children : List Node} (hchildren : ∀ child ∈ children, child.Solid) :
    ∀ child ∈ others.foldl (insertAlternative combine) children, child.Solid := by
  induction others generalizing children with
  | nil => exact hchildren
  | cons node others ih =>
    obtain ⟨hnode, hothers⟩ := List.forall_mem_cons.mp hothers
    exact ih hothers (forall_mem_insertAlternative h hnode hchildren)

lemma solid_unite {a b : Node} (ha : a.Solid) (hb : b.Solid) : (unite combine a b).Solid := by
  by_cases hunion : a.kind = .union
  · obtain ⟨children, rfl⟩ := eq_union_of_kind hunion
    cases ha with
    | union solid => exact .union (forall_mem_insertAlternative h hb solid)
  by_cases hunion' : b.kind = .union
  · obtain ⟨children, rfl⟩ := eq_union_of_kind hunion'
    rw [unite_union_right hunion]
    cases hb with
    | union solid => exact .union (forall_mem_insertAlternative h ha solid)
  · rw [unite_of_kind_ne_union hunion hunion']
    refine .union ?_
    intro child hchild
    have hmem : child ∈ [a, b] := mem_sortBy.mp hchild
    simp only [List.mem_cons, List.not_mem_nil, or_false] at hmem
    rcases hmem with rfl | rfl
    · exact ha
    · exact hb

lemma solid_mergeLevel_of_alike {a b : Node} (hab : Alike a b) (ha : a.Solid) (hb : b.Solid) :
    (mergeLevel combine a b).Solid := by
  cases hab with
  | integers =>
    cases ha with
    | integer lower upper lower' upper' =>
      cases hb with
      | integer low high low' high' =>
        exact .integer (le_min lower low) ((min_le_left _ _).trans upper)
          (lower'.trans (le_max_left _ _)) (max_le upper' high')
  | floatings | integerFloating | floatingInteger => exact .floating _ _
  | structs =>
    cases ha with
    | struct _ solid =>
      cases hb with
      | struct _ solid' =>
        refine .struct _ ?_
        intro field hfield
        exact forall_mem_mergeFields h solid solid' field (mem_sortBy.mp hfield)
  | lists =>
    cases ha with
    | list solid =>
      cases hb with
      | list solid' => exact .list (h _ _ solid solid')
  | unions =>
    cases ha with
    | union solid =>
      cases hb with
      | union solid' => exact .union (solid_foldl_insertAlternative h solid' solid)
  | stringBinary | binaryString => exact .string
  | void | null | boolean | strings | binaries | timestamp => exact ha

lemma solid_mergeLevel {a b : Node} (ha : a.Solid) (hb : b.Solid) :
    (mergeLevel combine a b).Solid := by
  rcases eq_void_or_eq_null_or_isPresent a with rfl | rfl | hpresent
  · cases ha
  · rwa [mergeLevel_null_left hb.ne_void]
  rcases eq_void_or_eq_null_or_isPresent b with rfl | rfl | hpresent'
  · cases hb
  · rwa [mergeLevel_null_right ha.ne_void]
  by_cases hfamily : a.kind.family = b.kind.family
  · exact solid_mergeLevel_of_alike h (alike_of_family_eq hfamily) ha hb
  · rw [mergeLevel_of_family_ne hpresent hpresent' hfamily]
    exact solid_unite h ha hb

end KeepsSolid

lemma solid_mergeWithin (depth : ℕ) {a b : Node} (ha : a.Solid) (hb : b.Solid) :
    (mergeWithin depth a b).Solid := by
  induction depth generalizing a b with
  | zero => exact ha
  | succ depth ih => exact solid_mergeLevel (fun a b ha hb => ih ha hb) ha hb

lemma Solid.merge {a b : Node} (ha : a.Solid) (hb : b.Solid) : (a.merge b).Solid :=
  solid_mergeWithin _ ha hb

/-! ### Merging solid nodes -/

/-- Integers of 64 bits are far below the largest double. -/
lemma boundToDouble_eq_ok {bound : ℤ} (lower : minLong ≤ bound) (upper : bound ≤ maxLong) :
    boundToDouble bound = .ok (.ofInt bound) := by
  have hle : bound.natAbs ≤ 2 ^ 63 := by
    simp only [minLong, maxLong] at lower upper
    omega
  have hlt : Double.magnitudeOfRatio (2 ^ 63) 1 < Double.infinityMagnitude := by decide +kernel
  have hmono := Double.magnitudeOfRatio_mono Nat.one_pos hle
  rw [boundToDouble, if_neg (hmono.trans_lt hlt).ne]

lemma tryWiden_eq_ok (min max : Double) {lower upper : ℤ} (h : Solid (.integer lower upper)) :
    tryWiden min max lower upper =
      .ok (.floating (min.min (.ofInt lower)) (max.max (.ofInt upper))) := by
  cases h with
  | integer least least' greatest greatest' =>
    rw [tryWiden, boundToDouble_eq_ok least least', boundToDouble_eq_ok greatest greatest']
    rfl

lemma kind_ne_void {node : Node} (h : node ≠ .void) : node.kind ≠ .void :=
  fun hkind => h (eq_void_of_kind hkind)

/-- A checked way to combine nodes that never stops on solid nodes, and keeps them solid. -/
structure Succeeds (check : Node → Node → Except MergeFault Node) (combine : Node → Node → Node) :
    Prop where
  eq_ok : ∀ a b, a.Solid → b.Solid → check a b = .ok (combine a b)
  solid : ∀ a b, a.Solid → b.Solid → (combine a b).Solid

namespace Succeeds

variable (h : Succeeds check combine)
include h

lemma absorbField {name : String} {node : Node} (hnode : node.Solid)
    {fields : List (String × Node)} (hfields : ∀ field ∈ fields, field.2.Solid) :
    tryAbsorbField check name node fields = .ok (Node.absorbField combine name node fields) := by
  induction fields with
  | nil => rfl
  | cons field fields ih =>
    obtain ⟨hfield, hfields⟩ := List.forall_mem_cons.mp hfields
    rw [tryAbsorbField_cons, absorbField_cons]
    by_cases hname : field.1 = name
    · rw [if_pos hname, if_pos hname, h.eq_ok _ _ hfield hnode]
      rfl
    · rw [if_neg hname, if_neg hname, ih hfields]
      rfl

lemma mergeFields {left right : List (String × Node)} (hleft : ∀ field ∈ left, field.2.Solid)
    (hright : ∀ field ∈ right, field.2.Solid) :
    tryMergeFields check left right = .ok (Node.mergeFields combine left right) := by
  induction right generalizing left with
  | nil => rfl
  | cons field right ih =>
    obtain ⟨hfield, hright⟩ := List.forall_mem_cons.mp hright
    have habsorbed : ∀ other ∈ Node.absorbField combine field.1 field.2 left, other.2.Solid :=
      forall_mem_absorbField h.solid hfield hleft
    rw [tryMergeFields_cons, mergeFields_cons, h.absorbField hfield hleft]
    exact ih habsorbed hright

lemma absorb {node : Node} (hnode : node.Solid) {children : List Node}
    (hchildren : ∀ child ∈ children, child.Solid) :
    tryAbsorb check node children = .ok (Node.absorb combine node children) := by
  induction children with
  | nil => rfl
  | cons child children ih =>
    obtain ⟨hchild, hchildren⟩ := List.forall_mem_cons.mp hchildren
    rw [tryAbsorb_cons, absorb_cons,
      if_neg (not_or.mpr ⟨kind_ne_void hchild.ne_void, kind_ne_void hnode.ne_void⟩)]
    by_cases hfamily : child.kind.family = node.kind.family
    · rw [if_pos hfamily, if_pos hfamily, h.eq_ok _ _ hchild hnode]
      rfl
    · rw [if_neg hfamily, if_neg hfamily, ih hchildren]
      rfl

lemma insertAlternative {node : Node} (hnode : node.Solid) {children : List Node}
    (hchildren : ∀ child ∈ children, child.Solid) :
    tryInsertAlternative check children node =
      .ok (Node.insertAlternative combine children node) := by
  -- what was absorbed is solid again, so no alternative is absent when they are sorted
  have hpresent : ¬ (Node.absorb combine node children).any fun child => child.kind = .void := by
    rw [List.any_eq_true]
    rintro ⟨child, hchild, hvoid⟩
    have hsolid := forall_mem_absorb h.solid hnode hchildren child hchild
    exact kind_ne_void hsolid.ne_void (by simpa using hvoid)
  rw [tryInsertAlternative, h.absorb hnode hchildren]
  exact if_neg hpresent

lemma foldl_insertAlternative {others : List Node} (hothers : ∀ other ∈ others, other.Solid)
    {children : List Node} (hchildren : ∀ child ∈ children, child.Solid) :
    others.foldlM (tryInsertAlternative check) children =
      .ok (others.foldl (Node.insertAlternative combine) children) := by
  induction others generalizing children with
  | nil => rfl
  | cons node others ih =>
    obtain ⟨hnode, hothers⟩ := List.forall_mem_cons.mp hothers
    have hnext := ih hothers (forall_mem_insertAlternative h.solid hnode hchildren)
    rw [List.foldlM_cons, h.insertAlternative hnode hchildren]
    exact hnext

lemma unite {a b : Node} (ha : a.Solid) (hb : b.Solid) :
    tryUnite check a b = .ok (Node.unite combine a b) := by
  by_cases hunion : a.kind = .union
  · obtain ⟨children, rfl⟩ := eq_union_of_kind hunion
    cases ha with
    | union solid =>
      rw [tryUnite, h.insertAlternative hb solid]
      rfl
  by_cases hunion' : b.kind = .union
  · obtain ⟨children, rfl⟩ := eq_union_of_kind hunion'
    cases hb with
    | union solid =>
      rw [tryUnite_union_right hunion, unite_union_right hunion, h.insertAlternative ha solid]
      rfl
  · rw [tryUnite_of_kind_ne_union hunion hunion', unite_of_kind_ne_union hunion hunion']

lemma mergeLevel_of_alike {a b : Node} (hab : Alike a b) (ha : a.Solid) (hb : b.Solid) :
    tryMergeLevel check a b = .ok (Node.mergeLevel combine a b) := by
  cases hab with
  | integerFloating => exact tryWiden_eq_ok _ _ ha
  | floatingInteger => exact tryWiden_eq_ok _ _ hb
  | structs =>
    cases ha with
    | struct _ solid =>
      cases hb with
      | struct _ solid' =>
        rw [tryMergeLevel, h.mergeFields solid solid']
        rfl
  | lists =>
    cases ha with
    | list solid =>
      cases hb with
      | list solid' =>
        rw [tryMergeLevel, h.eq_ok _ _ solid solid']
        rfl
  | unions =>
    cases ha with
    | union solid =>
      cases hb with
      | union solid' =>
        rw [tryMergeLevel, h.foldl_insertAlternative solid' solid]
        rfl
  | _ => rfl

lemma mergeLevel {a b : Node} (ha : a.Solid) (hb : b.Solid) :
    tryMergeLevel check a b = .ok (Node.mergeLevel combine a b) := by
  rcases eq_void_or_eq_null_or_isPresent a with rfl | rfl | hpresent
  · cases ha
  · rw [tryMergeLevel_null_left hb.ne_void, mergeLevel_null_left hb.ne_void]
  rcases eq_void_or_eq_null_or_isPresent b with rfl | rfl | hpresent'
  · cases hb
  · rw [tryMergeLevel_null_right ha.ne_void, mergeLevel_null_right ha.ne_void]
  by_cases hfamily : a.kind.family = b.kind.family
  · exact h.mergeLevel_of_alike (alike_of_family_eq hfamily) ha hb
  · rw [tryMergeLevel_of_family_ne hpresent hpresent' hfamily,
      mergeLevel_of_family_ne hpresent hpresent' hfamily, h.unite ha hb]

end Succeeds

lemma succeeds_mergeWithin (depth : ℕ) : Succeeds (tryMergeWithin depth) (mergeWithin depth) := by
  have keeps : ∀ depth a b, Solid a → Solid b → Solid (mergeWithin depth a b) :=
    fun depth _ _ ha hb => solid_mergeWithin depth ha hb
  refine ⟨?_, keeps depth⟩
  induction depth with
  | zero => exact fun a b _ _ => rfl
  | succ depth ih =>
    intro a b ha hb
    exact Succeeds.mergeLevel ⟨ih, keeps depth⟩ ha hb

/-- Merging solid nodes never stops. -/
theorem Solid.tryMerge_eq_ok {a b : Node} (ha : a.Solid) (hb : b.Solid) :
    a.tryMerge b = .ok (a.merge b) :=
  (succeeds_mergeWithin _).eq_ok a b ha hb

/-- Merging solid nodes one after the other never stops. -/
lemma Solid.foldlM_tryMerge {start : Node} (hstart : start.Solid) {nodes : List Node}
    (hnodes : ∀ node ∈ nodes, node.Solid) :
    nodes.foldlM tryMerge start = .ok (nodes.foldl Node.merge start) := by
  induction nodes generalizing start with
  | nil => rfl
  | cons node nodes ih =>
    obtain ⟨hnode, hnodes⟩ := List.forall_mem_cons.mp hnodes
    rw [List.foldlM_cons, hstart.tryMerge_eq_ok hnode]
    exact ih (hstart.merge hnode) hnodes

/-- Merging canonical nodes never stops. -/
theorem Canonical.tryMerge_eq_ok {a b : Node} (ha : a.Canonical) (hb : b.Canonical) :
    a.tryMerge b = .ok (a.merge b) :=
  Solid.tryMerge_eq_ok ha.solid hb.solid

/-- A merge has a level to start with. -/
lemma exists_tryMerge_eq_tryMergeLevel (a b : Node) :
    ∃ depth, a.tryMerge b = tryMergeLevel (tryMergeWithin depth) a b := by
  have hpos := size_pos a
  obtain ⟨depth, hdepth⟩ := Nat.exists_eq_add_of_lt (Nat.add_pos_left hpos b.size)
  refine ⟨depth, ?_⟩
  rw [tryMerge, hdepth, Nat.zero_add]
  rfl

@[simp] lemma tryMerge_void_left (b : Node) : void.tryMerge b = .ok b := by
  obtain ⟨depth, h⟩ := exists_tryMerge_eq_tryMergeLevel .void b
  rw [h, tryMergeLevel_void_left]

@[simp] lemma tryMerge_void_right (a : Node) : a.tryMerge .void = .ok a := by
  obtain ⟨depth, h⟩ := exists_tryMerge_eq_tryMergeLevel a .void
  rw [h, tryMergeLevel_void_right]

/-- Merging schemas, canonical or absent, never stops. -/
theorem IsSchema.tryMerge_eq_ok {a b : Node} (ha : a.IsSchema) (hb : b.IsSchema) :
    a.tryMerge b = .ok (a.merge b) := by
  rcases ha with rfl | ha
  · rw [tryMerge_void_left]
    exact congrArg Except.ok (merge_eq_of_tryMerge (tryMerge_void_left b)).symm
  rcases hb with rfl | hb
  · rw [tryMerge_void_right]
    exact congrArg Except.ok (merge_eq_of_tryMerge (tryMerge_void_right a)).symm
  · exact Canonical.tryMerge_eq_ok ha hb

end Node

end RecordSchema
