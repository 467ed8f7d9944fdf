import RecordSchema.Proofs.Node.Indistinguishable
import RecordSchema.Proofs.Node.Span

/-!
# The order of coverage

One node covers another if it admits everything that was observed for the other: its bounds
include the other's bounds, integers may become floating-point numbers and binary data strings, a
struct has every field of the other one, and a union covers what one of its alternatives covers.
`CoveredBy` says this without merging anything.

The order is followed by the families of alternatives: one canonical node is covered by another if
each of its alternatives is covered by the one of its family (`coveredBy_iff_pick`).  As merging
works family by family as well, every law is shown for two alternatives of one family, and from
there for all nodes, by induction on their sizes.

The main statements are that coverage is a preorder (`CoveredBy.refl`, `CoveredBy.trans`), that a
merge covers both sides (`coveredBy_merge`) and that what covers both sides covers their merge
(`CoveredBy.merge`).
-/

namespace RecordSchema

namespace Node

/-- The second node covers the first one. -/
inductive CoveredBy : Node → Node → Prop
  /-- Where nothing was observed there is nothing to cover. -/
  | void (b : Node) : CoveredBy .void b
  /-- Nulls are covered by every node that was observed. -/
  | null {b : Node} (observed : b ≠ .void) : CoveredBy .null b
  | boolean : CoveredBy .boolean .boolean
  | string : CoveredBy .string .string
  | binary : CoveredBy .binary .binary
  | timestamp : CoveredBy .timestamp .timestamp
  | binaryString : CoveredBy .binary .string
  | integers {a b c d : ℤ} (lower : c ≤ a) (upper : b ≤ d) :
      CoveredBy (.integer a b) (.integer c d)
  | integerFloating {a b : ℤ} {c d : Double} (lower : c.AtMost (.ofInt a))
      (upper : (Double.ofInt b).AtMost d) : CoveredBy (.integer a b) (.floating c d)
  | floatings {a b c d : Double} (lower : c.AtMost a) (upper : b.AtMost d) :
      CoveredBy (.floating a b) (.floating c d)
  /-- Every field has a field of its name on the other side, which covers it. -/
  | structs {fields others : List (String × Node)} {shapes otherShapes : ShapeSet}
      (present : ∀ field ∈ fields, field.1 ∈ names others)
      (covered : ∀ field ∈ fields, CoveredBy field.2 (fieldNode field.1 others)) :
      CoveredBy (.struct fields shapes) (.struct others otherShapes)
  | lists {element other : Node} (covered : CoveredBy element other) :
      CoveredBy (.list element) (.list other)
  /-- A union covers what one of its alternatives covers. -/
  | alternative {a child : Node} {children : List Node} (single : a.kind ≠ .union)
      (mem : child ∈ children) (covered : CoveredBy a child) : CoveredBy a (.union children)
  /-- A union is covered if each of its alternatives is. -/
  | union {children : List Node} {b : Node} (covered : ∀ child ∈ children, CoveredBy child b) :
      CoveredBy (.union children) b

/-! ### Alternatives -/

lemma CoveredBy.eq_void_of_kind_ne_union {a : Node} (h : CoveredBy a .void)
    (single : a.kind ≠ .union) : a = .void := by
  cases h with
  | void => rfl
  | null observed => exact absurd rfl observed
  | union => exact absurd rfl single

/-- Where nothing was observed, nothing is covered. -/
lemma CoveredBy.eq_void {a : Node} (h : CoveredBy a .void) (ha : a.IsSchema) : a = .void := by
  by_cases hunion : a.kind = .union
  · obtain ⟨children, rfl⟩ := eq_union_of_kind hunion
    rcases ha with hvoid | hcanonical
    · exact hvoid
    cases hcanonical with
    | union two alternatives _ =>
      -- one of the alternatives would be absent
      obtain ⟨child, hchild⟩ := List.exists_mem_of_length_pos (by omega : 0 < children.length)
      have hsingle := alternatives.alternative child hchild
      cases h with
      | union covered =>
        exact absurd ((covered child hchild).eq_void_of_kind_ne_union hsingle.2) hsingle.1.1
  · exact h.eq_void_of_kind_ne_union hunion

lemma CoveredBy.family_eq {a b : Node} (h : CoveredBy a b) (ha : a.IsAlternative)
    (single : b.kind ≠ .union) : a.kind.family = b.kind.family := by
  cases h with
  | void => exact absurd rfl ha.1.1
  | null => exact absurd rfl ha.1.2
  | alternative => exact absurd rfl single
  | union => exact absurd rfl ha.2
  | _ => rfl

lemma coveredBy_iff_forall_alternatives {a b : Node} (ha : a ≠ .void) (hb : b ≠ .void) :
    CoveredBy a b ↔ ∀ child ∈ a.alternatives, CoveredBy child b := by
  cases a with
  | void => exact absurd rfl ha
  | null =>
    constructor
    · intro _ child hchild
      cases hchild
    · intro _
      exact .null hb
  | union children =>
    refine ⟨fun h child hchild => ?_, .union⟩
    cases h with
    | alternative single => exact absurd rfl single
    | union covered => exact covered child hchild
  | _ => simp only [alternatives, List.forall_mem_singleton]

/-- An alternative is covered by a canonical node if the alternative of its family covers it. -/
lemma IsAlternative.coveredBy_iff {a c : Node} (ha : a.IsAlternative) (hc : c.Canonical) :
    CoveredBy a c ↔ CoveredBy a (pick a.kind.family c.alternatives) := by
  have hnodup : (families c.alternatives).Nodup := nodup_families_iff.mpr hc.alternatives.apart
  constructor
  · intro h
    -- the alternative that covers `a` is of its family, and there is only one of that family
    suffices hchild : ∃ child ∈ c.alternatives, CoveredBy a child by
      obtain ⟨child, hmem, hcovered⟩ := hchild
      have hsingle := (hc.alternatives.alternative child hmem).2
      rwa [hcovered.family_eq ha hsingle, pick_of_mem hnodup hmem]
    by_cases hunion : c.kind = .union
    · obtain ⟨children, rfl⟩ := eq_union_of_kind hunion
      cases h with
      | void => exact absurd rfl ha.1.1
      | null => exact absurd rfl ha.1.2
      | alternative _ mem covered => exact ⟨_, mem, covered⟩
      | union => exact absurd rfl ha.2
    · have hfamily := h.family_eq ha hunion
      have hc' : c.IsAlternative := ha.of_family_eq hfamily.symm
      rw [alternatives_of_isAlternative hc']
      exact ⟨c, List.mem_singleton_self c, h⟩
  · intro h
    rcases pick_eq_void_or_mem a.kind.family c.alternatives with hvoid | ⟨hmem, -⟩
    · rw [hvoid] at h
      exact absurd (h.eq_void_of_kind_ne_union ha.2) ha.1.1
    by_cases hunion : c.kind = .union
    · obtain ⟨children, rfl⟩ := eq_union_of_kind hunion
      exact .alternative ha.2 hmem h
    · cases c with
      | void | null => cases hmem
      | union => exact absurd rfl hunion
      | _ => rwa [List.mem_singleton.mp hmem] at h

/-- What a canonical node has for a family is absent, or a canonical alternative of the family that
is no larger than the node. -/
lemma CanonicalWith.pick_eq_void_or {a : Node} (h : a.Canonical) (family : Kind) :
    pick family a.alternatives = .void ∨
      (pick family a.alternatives).IsAlternative ∧ (pick family a.alternatives).Canonical ∧
        (pick family a.alternatives).kind.family = family ∧
          (pick family a.alternatives).size ≤ a.size := by
  refine (pick_eq_void_or_mem family a.alternatives).imp_right ?_
  rintro ⟨hmem, hfamily⟩
  exact ⟨h.alternatives.alternative _ hmem, h.of_mem_alternatives hmem, hfamily,
    size_le_of_mem_alternatives hmem⟩

/-- Coverage is coverage family by family. -/
theorem coveredBy_iff_pick {a c : Node} (ha : a.Canonical) (hc : c.Canonical) :
    CoveredBy a c ↔
      ∀ family, CoveredBy (pick family a.alternatives) (pick family c.alternatives) := by
  rw [coveredBy_iff_forall_alternatives ha.ne_void hc.ne_void]
  constructor
  · intro h family
    rcases pick_eq_void_or_mem family a.alternatives with hvoid | ⟨hmem, hfamily⟩
    · rw [hvoid]
      exact .void _
    · have hcovered := h _ hmem
      rwa [(ha.alternatives.alternative _ hmem).coveredBy_iff hc, hfamily] at hcovered
  · intro h child hchild
    have hpick := pick_of_mem (nodup_families_iff.mpr ha.alternatives.apart) hchild
    rw [(ha.alternatives.alternative child hchild).coveredBy_iff hc]
    have hfamily := h child.kind.family
    rwa [hpick] at hfamily

/-! ### Numbers -/

/-- A number is covered by floating-point bounds if they enclose its span. -/
lemma Spans.coveredBy_floating_iff {a : Node} {c d : Double} {x y z w : ℤ} (h : Spans a x y)
    (h' : Spans (.floating c d) z w) : CoveredBy a (.floating c d) ↔ z ≤ x ∧ y ≤ w := by
  cases h' with
  | floating lower upper =>
    cases h with
    | integer a b =>
      rw [← Double.atMost_iff lower (place?_ofInt a), ← Double.atMost_iff (place?_ofInt b) upper]
      constructor
      · intro h
        cases h with
        | integerFloating lower upper => exact ⟨lower, upper⟩
      · rintro ⟨lower, upper⟩
        exact .integerFloating lower upper
    | floating lower' upper' =>
      rw [← Double.atMost_iff lower lower', ← Double.atMost_iff upper' upper]
      constructor
      · intro h
        cases h with
        | floatings lower upper => exact ⟨lower, upper⟩
      · rintro ⟨lower, upper⟩
        exact .floatings lower upper

/-- Bounds that enclose floating-point bounds enclose what these enclose. -/
lemma CoveredBy.trans_floating {a : Node} {c d e f : Double} (h : CoveredBy a (.floating c d))
    (h' : CoveredBy (.floating c d) (.floating e f)) (ha : ∃ x y, Spans a x y)
    (hmiddle : Canonical (.floating c d)) (houter : Canonical (.floating e f)) :
    CoveredBy a (.floating e f) := by
  obtain ⟨x, y, hspan⟩ := ha
  obtain ⟨z, w, hspan'⟩ := hmiddle.exists_spans rfl
  obtain ⟨u, v, hspan''⟩ := houter.exists_spans rfl
  have hinner := (hspan.coveredBy_floating_iff hspan').mp h
  have hmid := (hspan'.coveredBy_floating_iff hspan'').mp h'
  exact (hspan.coveredBy_floating_iff hspan'').mpr
    ⟨hmid.1.trans hinner.1, hinner.2.trans hmid.2⟩

/-! ### Structs by their fields -/

/-- Coverage of structs is coverage name by name, where a field that is not there is absent. -/
lemma coveredBy_structs_iff {fields others : List (String × Node)} {shapes otherShapes : ShapeSet}
    (h : Canonical (.struct fields shapes)) (h' : Canonical (.struct others otherShapes)) :
    CoveredBy (.struct fields shapes) (.struct others otherShapes) ↔
      ∀ name, CoveredBy (fieldNode name fields) (fieldNode name others) := by
  constructor
  · intro hcovered name
    cases hcovered with
    | structs _ covered =>
      rcases fieldNode_eq_void_or_mem name fields with hvoid | hmem
      · rw [hvoid]
        exact .void _
      · exact covered _ hmem
  · intro hcovered
    refine .structs (fun field hfield => ?_) fun field hfield => ?_
    · have hpresent := (mem_names_iff_fieldNode_ne_void h field.1).mp (List.mem_map_of_mem hfield)
      refine (mem_names_iff_fieldNode_ne_void h' field.1).mpr fun hvoid => hpresent ?_
      have hfield' := hcovered field.1
      rw [hvoid] at hfield'
      exact hfield'.eq_void (isSchema_fieldNode h field.1)
    · rw [← fieldNode_of_mem h.nodup_names hfield]
      exact hcovered field.1

/-! ### A preorder -/

/-- Every schema covers itself. -/
theorem CoveredBy.refl {a : Node} (h : a.IsSchema) : CoveredBy a a := by
  rcases h with rfl | h
  · exact .void _
  induction h with
  | null => exact .null (by simp)
  | boolean => exact .boolean
  | integer => exact .integers le_rfl le_rfl
  | floating ordered =>
    obtain ⟨x, y, hx, hy, -⟩ := ordered
    exact .floatings ((Double.atMost_iff hx hx).mpr le_rfl) ((Double.atMost_iff hy hy).mpr le_rfl)
  | string => exact .string
  | binary => exact .binary
  | timestamp => exact .timestamp
  | struct increasing _ _ ih =>
    refine .structs (fun field hfield => List.mem_map_of_mem hfield) fun field hfield => ?_
    rw [fieldNode_of_mem (nodup_names_of_pairwise increasing) hfield]
    exact ih field hfield
  | list _ ih => exact .lists ih
  | union _ alternatives _ ih =>
    refine .union fun child hchild => ?_
    exact .alternative (alternatives.alternative child hchild).2 hchild (ih child hchild)

/-- Within a family: what is covered by a covered alternative is covered. -/
lemma coveredBy_trans_of_alternatives {a b c : Node} (hab : CoveredBy a b) (hbc : CoveredBy b c)
    (ha : a.Canonical) (hb : b.Canonical) (hc : c.Canonical) (hunion : a.kind ≠ .union)
    (hunion' : b.kind ≠ .union) (hunion'' : c.kind ≠ .union)
    (ih : ∀ x y z, y.size < b.size → x.IsSchema → y.IsSchema → z.IsSchema →
      CoveredBy x y → CoveredBy y z → CoveredBy x z) : CoveredBy a c := by
  cases hab with
  | void => exact .void c
  | null => exact .null hc.ne_void
  | boolean | string | binary | timestamp => exact hbc
  | binaryString =>
    cases hbc with
    | string => exact .binaryString
    | alternative => exact absurd rfl hunion''
  | integers lower upper =>
    cases hbc with
    | integers lower' upper' => exact .integers (lower'.trans lower) (upper.trans upper')
    | integerFloating lower' upper' =>
      -- a larger integer never rounds to an earlier place
      obtain ⟨x, y, hspan⟩ := hc.exists_spans rfl
      have hinner := ((Spans.integer _ _).coveredBy_floating_iff hspan).mp
        (.integerFloating lower' upper')
      refine ((Spans.integer _ _).coveredBy_floating_iff hspan).mpr ⟨?_, ?_⟩
      · exact hinner.1.trans (Double.placeOfInt_mono lower)
      · exact (Double.placeOfInt_mono upper).trans hinner.2
    | alternative => exact absurd rfl hunion''
  | integerFloating lower upper =>
    cases hbc with
    | floatings lower' upper' =>
      exact CoveredBy.trans_floating (.integerFloating lower upper) (.floatings lower' upper')
        (ha.exists_spans rfl) hb hc
    | alternative => exact absurd rfl hunion''
  | floatings lower upper =>
    cases hbc with
    | floatings lower' upper' =>
      exact CoveredBy.trans_floating (.floatings lower upper) (.floatings lower' upper')
        (ha.exists_spans rfl) hb hc
    | alternative => exact absurd rfl hunion''
  | @structs _ fields _ _ present covered =>
    cases hbc with
    | structs present' covered' =>
      have hab := (coveredBy_structs_iff ha hb).mp (.structs present covered)
      have hbc := (coveredBy_structs_iff hb hc).mp (.structs present' covered')
      refine (coveredBy_structs_iff ha hc).mpr fun name => ?_
      by_cases hvoid : fieldNode name fields = .void
      · have hleft := hab name
        rw [hvoid] at hleft
        rw [hleft.eq_void (isSchema_fieldNode ha name)]
        exact .void _
      · exact ih _ _ _ (size_fieldNode_lt hvoid _) (isSchema_fieldNode ha name)
          (isSchema_fieldNode hb name) (isSchema_fieldNode hc name) (hab name) (hbc name)
    | alternative => exact absurd rfl hunion''
  | lists covered =>
    cases hbc with
    | lists covered' =>
      cases ha with
      | list ha =>
        cases hb with
        | list hb =>
          cases hc with
          | list hc =>
            refine .lists (ih _ _ _ ?_ (Or.inr ha) (Or.inr hb) (Or.inr hc) covered covered')
            simp only [size]
            omega
    | alternative => exact absurd rfl hunion''
  | alternative => exact absurd rfl hunion'
  | union => exact absurd rfl hunion

/-- What is covered by a covered schema is covered. -/
theorem CoveredBy.trans {a b c : Node} (hab : CoveredBy a b) (hbc : CoveredBy b c)
    (ha : a.IsSchema) (hb : b.IsSchema) (hc : c.IsSchema) : CoveredBy a c := by
  induction hsize : b.size using Nat.strong_induction_on generalizing a b c with
  | _ bound ih =>
    by_cases hvoid : a = .void
    · rw [hvoid]
      exact .void c
    have hvoid' : b ≠ .void := fun h => hvoid ((h ▸ hab).eq_void ha)
    have hvoid'' : c ≠ .void := fun h => hvoid' ((h ▸ hbc).eq_void hb)
    have ha' := ha.resolve_left hvoid
    have hb' := hb.resolve_left hvoid'
    have hc' := hc.resolve_left hvoid''
    refine (coveredBy_iff_pick ha' hc').mpr fun family => ?_
    have hleft := (coveredBy_iff_pick ha' hb').mp hab family
    have hright := (coveredBy_iff_pick hb' hc').mp hbc family
    rcases ha'.pick_eq_void_or family with h | ⟨hx, hx', -, -⟩
    · rw [h]
      exact .void _
    rcases hb'.pick_eq_void_or family with h | ⟨hy, hy', -, hle⟩
    · rw [h] at hleft
      exact absurd (hleft.eq_void_of_kind_ne_union hx.2) hx.1.1
    rcases hc'.pick_eq_void_or family with h | ⟨hz, hz', -, -⟩
    · rw [h] at hright
      exact absurd (hright.eq_void_of_kind_ne_union hy.2) hy.1.1
    exact coveredBy_trans_of_alternatives hleft hright hx' hy' hz' hx.2 hy.2 hz.2
      fun u v w hlt hu hv hw huv hvw => ih v.size (by omega) huv hvw hu hv hw rfl

/-! ### A merge covers both sides -/

lemma size_fieldNode_le (name : String) (fields : List (String × Node)) (shapes : ShapeSet) :
    (fieldNode name fields).size ≤ (struct fields shapes).size := by
  by_cases hvoid : fieldNode name fields = .void
  · rw [hvoid]
    exact size_pos _
  · exact (size_fieldNode_lt hvoid shapes).le

/-- Within a family: bounds are widened, and fields and elements are merged in turn. -/
lemma coveredBy_merge_of_alike {a b : Node} (hab : Alike a b) (ha : a.Canonical)
    (hb : b.Canonical) (hunion : a.kind ≠ .union)
    (ih : ∀ x y, x.size + y.size < a.size + b.size → x.IsSchema → y.IsSchema →
      CoveredBy x (x.merge y) ∧ CoveredBy x (y.merge x)) :
    CoveredBy a (a.merge b) ∧ CoveredBy a (b.merge a) := by
  cases hab with
  | integers =>
    rw [merge_integers, merge_integers]
    exact ⟨.integers (min_le_left _ _) (le_max_left _ _),
      .integers (min_le_right _ _) (le_max_right _ _)⟩
  | integerFloating | floatingInteger | floatings =>
    obtain ⟨x, y, hspan⟩ := ha.exists_spans rfl
    obtain ⟨z, w, hspan'⟩ := hb.exists_spans rfl
    have hmerge := hspan.merge hspan'
    have hmerge' := hspan'.merge hspan
    simp only [merge_integer_floating, merge_floating_integer, merge_floatings] at hmerge hmerge' ⊢
    constructor
    · exact (hspan.coveredBy_floating_iff hmerge).mpr ⟨min_le_left _ _, le_max_left _ _⟩
    · exact (hspan.coveredBy_floating_iff hmerge').mpr ⟨min_le_right _ _, le_max_right _ _⟩
  | structs fields others shapes otherShapes =>
    have hmerge := ha.merge hb
    have hmerge' := hb.merge ha
    rw [merge_structs] at hmerge hmerge' ⊢
    rw [merge_structs, coveredBy_structs_iff ha hmerge, coveredBy_structs_iff ha hmerge']
    rw [← forall_and]
    intro name
    rw [fieldNode_sortFields_mergeFields name ha.nodup_names hb.nodup_names,
      fieldNode_sortFields_mergeFields name hb.nodup_names ha.nodup_names]
    by_cases hvoid : fieldNode name fields = .void
    · rw [hvoid]
      exact ⟨.void _, .void _⟩
    · have hlt := size_fieldNode_lt hvoid shapes
      have hle := size_fieldNode_le name others otherShapes
      exact ih _ _ (by omega) (isSchema_fieldNode ha name) (isSchema_fieldNode hb name)
  | lists element other =>
    cases ha with
    | list ha =>
      cases hb with
      | list hb =>
        obtain ⟨hleft, hright⟩ := ih element other (by simp only [size]; omega) (Or.inr ha)
          (Or.inr hb)
        rw [merge_lists, merge_lists]
        exact ⟨.lists hleft, .lists hright⟩
  | unions => exact absurd rfl hunion
  | void => exact ⟨.void _, .void _⟩
  | null => exact ⟨.null (ha.merge hb).ne_void, .null (hb.merge ha).ne_void⟩
  | boolean | strings | binaries | stringBinary | binaryString | timestamp =>
    simp only [merge_eq_mergeLevel]
    constructor <;> constructor

/-- A merge covers what is merged, whichever side it is on. -/
theorem coveredBy_merge {a b : Node} (ha : a.IsSchema) (hb : b.IsSchema) :
    CoveredBy a (a.merge b) ∧ CoveredBy a (b.merge a) := by
  induction hsize : a.size + b.size using Nat.strong_induction_on generalizing a b with
  | _ bound ih =>
    by_cases hvoid : a = .void
    · rw [hvoid]
      exact ⟨.void _, .void _⟩
    by_cases hvoid' : b = .void
    · rw [hvoid', merge_void_right, merge_void_left]
      exact ⟨.refl ha, .refl ha⟩
    have ha' := ha.resolve_left hvoid
    have hb' := hb.resolve_left hvoid'
    rw [coveredBy_iff_pick ha' (ha'.merge hb'), coveredBy_iff_pick ha' (hb'.merge ha'), ← forall_and]
    intro family
    -- the two sides merge the same two alternatives, in one order or the other
    suffices hboth : CoveredBy (pick family a.alternatives)
          ((pick family a.alternatives).merge (pick family b.alternatives)) ∧
        CoveredBy (pick family a.alternatives)
          ((pick family b.alternatives).merge (pick family a.alternatives)) by
      rcases pick_merge ha hb family with h | h <;> rcases pick_merge hb ha family with h' | h' <;>
        rw [h, h'] <;> simp only [hboth, and_self]
    rcases ha'.pick_eq_void_or family with h | ⟨hx, hx', hfamily, hle⟩
    · rw [h]
      exact ⟨.void _, .void _⟩
    rcases hb'.pick_eq_void_or family with h | ⟨hy, hy', hfamily', hle'⟩
    · rw [h, merge_void_right, merge_void_left]
      exact ⟨.refl (Or.inr hx'), .refl (Or.inr hx')⟩
    refine coveredBy_merge_of_alike (alike_of_family_eq (hfamily.trans hfamily'.symm)) hx' hy' hx.2
      fun u v hlt hu hv => ih (u.size + v.size) (by omega) hu hv rfl

/-! ### A merge is covered by what covers both sides -/

/-- Floating-point bounds that include two spans include the span of the merged numbers. -/
lemma CoveredBy.merge_floating {a b : Node} {u v : Double} (hac : CoveredBy a (.floating u v))
    (hbc : CoveredBy b (.floating u v)) (ha : ∃ x y, Spans a x y) (hb : ∃ x y, Spans b x y)
    (hc : Canonical (.floating u v)) : CoveredBy (a.merge b) (.floating u v) := by
  obtain ⟨x, y, hspan⟩ := ha
  obtain ⟨z, w, hspan'⟩ := hb
  obtain ⟨_, _, houter⟩ := hc.exists_spans rfl
  have hleft := (hspan.coveredBy_floating_iff houter).mp hac
  have hright := (hspan'.coveredBy_floating_iff houter).mp hbc
  exact ((hspan.merge hspan').coveredBy_floating_iff houter).mpr
    ⟨le_min hleft.1 hright.1, max_le hleft.2 hright.2⟩

/-- Within a family: a node that covers two alternatives covers their merge. -/
lemma merge_coveredBy_of_alike {a b c : Node} (hab : Alike a b) (hac : CoveredBy a c)
    (hbc : CoveredBy b c) (ha : a.Canonical) (hb : b.Canonical) (hc : c.Canonical)
    (hunion : a.kind ≠ .union) (hunion' : c.kind ≠ .union)
    (ih : ∀ x y z, x.size + y.size < a.size + b.size → x.IsSchema → y.IsSchema → z.IsSchema →
      CoveredBy x z → CoveredBy y z → CoveredBy (x.merge y) z) : CoveredBy (a.merge b) c := by
  cases hab with
  | strings | binaries | stringBinary | null | boolean | timestamp | void =>
    rw [merge_eq_mergeLevel]
    exact hac
  | binaryString =>
    rw [merge_eq_mergeLevel]
    exact hbc
  | integers =>
    cases hac with
    | integers lower upper =>
      cases hbc with
      | integers lower' upper' =>
        rw [merge_integers]
        exact .integers (le_min lower lower') (max_le upper upper')
    | integerFloating lower upper =>
      exact CoveredBy.merge_floating (.integerFloating lower upper) hbc (ha.exists_spans rfl)
        (hb.exists_spans rfl) hc
    | alternative => exact absurd rfl hunion'
  | floatingInteger | floatings =>
    cases hac with
    | floatings lower upper =>
      exact CoveredBy.merge_floating (.floatings lower upper) hbc (ha.exists_spans rfl)
        (hb.exists_spans rfl) hc
    | alternative => exact absurd rfl hunion'
  | integerFloating =>
    -- it is the right-hand side that integers would not be enough for
    cases hbc with
    | floatings lower upper =>
      exact hac.merge_floating (.floatings lower upper) (ha.exists_spans rfl)
        (hb.exists_spans rfl) hc
    | alternative => exact absurd rfl hunion'
  | structs fields others shapes otherShapes =>
    cases hac with
    | alternative => exact absurd rfl hunion'
    | structs present covered =>
      have hmerge := ha.merge hb
      have hac := (coveredBy_structs_iff ha hc).mp (.structs present covered)
      have hbc := (coveredBy_structs_iff hb hc).mp hbc
      rw [merge_structs] at hmerge ⊢
      refine (coveredBy_structs_iff hmerge hc).mpr fun name => ?_
      rw [fieldNode_sortFields_mergeFields name ha.nodup_names hb.nodup_names]
      by_cases hvoid : fieldNode name fields = .void
      · rw [hvoid, merge_void_left]
        exact hbc name
      · have hlt := size_fieldNode_lt hvoid shapes
        have hle := size_fieldNode_le name others otherShapes
        exact ih _ _ _ (by omega) (isSchema_fieldNode ha name) (isSchema_fieldNode hb name)
          (isSchema_fieldNode hc name) (hac name) (hbc name)
  | lists element other =>
    cases hac with
    | alternative => exact absurd rfl hunion'
    | lists covered =>
      cases hbc with
      | lists covered' =>
        cases ha with
        | list ha =>
          cases hb with
          | list hb =>
            cases hc with
            | list hc =>
              rw [merge_lists]
              refine .lists (ih _ _ _ ?_ (Or.inr ha) (Or.inr hb) (Or.inr hc) covered covered')
              simp only [size]
              omega
  | unions => exact absurd rfl hunion

/-- A schema that covers both sides covers their merge. -/
theorem CoveredBy.merge {a b c : Node} (hac : CoveredBy a c) (hbc : CoveredBy b c)
    (ha : a.IsSchema) (hb : b.IsSchema) (hc : c.IsSchema) : CoveredBy (a.merge b) c := by
  induction hsize : a.size + b.size using Nat.strong_induction_on generalizing a b c with
  | _ bound ih =>
    by_cases hvoid : a = .void
    · rwa [hvoid, merge_void_left]
    by_cases hvoid' : b = .void
    · rwa [hvoid', merge_void_right]
    have hvoid'' : c ≠ .void := fun h => hvoid ((h ▸ hac).eq_void ha)
    have ha' := ha.resolve_left hvoid
    have hb' := hb.resolve_left hvoid'
    have hc' := hc.resolve_left hvoid''
    refine (coveredBy_iff_pick (ha'.merge hb') hc').mpr fun family => ?_
    have hleft := (coveredBy_iff_pick ha' hc').mp hac family
    have hright := (coveredBy_iff_pick hb' hc').mp hbc family
    rcases ha'.pick_eq_void_or family with h | ⟨hx, hx', hfamily, hle⟩
    · rcases pick_merge ha hb family with h' | h' <;> rw [h', h] <;> simpa using hright
    rcases hb'.pick_eq_void_or family with h | ⟨hy, hy', hfamily', hle'⟩
    · rcases pick_merge ha hb family with h' | h' <;> rw [h', h] <;> simpa using hleft
    rcases hc'.pick_eq_void_or family with h | ⟨hz, hz', -, -⟩
    · rw [h] at hleft
      exact absurd (hleft.eq_void_of_kind_ne_union hx.2) hx.1.1
    have hsame := hfamily.trans hfamily'.symm
    rcases pick_merge ha hb family with h | h <;> rw [h]
    · exact merge_coveredBy_of_alike (alike_of_family_eq hsame) hleft hright hx' hy' hz' hx.2 hz.2
        fun u v w hlt hu hv hw huw hvw => ih (u.size + v.size) (by omega) huw hvw hu hv hw rfl
    · exact merge_coveredBy_of_alike (alike_of_family_eq hsame.symm) hright hleft hy' hx' hz' hy.2
        hz.2 fun u v w hlt hu hv hw huw hvw => ih (u.size + v.size) (by omega) huw hvw hu hv hw rfl

/-- A schema covers a merge if and only if it covers both sides. -/
theorem merge_coveredBy_iff {a b c : Node} (ha : a.IsSchema) (hb : b.IsSchema) (hc : c.IsSchema) :
    CoveredBy (a.merge b) c ↔ CoveredBy a c ∧ CoveredBy b c := by
  constructor
  · intro h
    exact ⟨(coveredBy_merge ha hb).1.trans h ha (ha.merge hb) hc,
      (coveredBy_merge hb ha).2.trans h hb (ha.merge hb) hc⟩
  · rintro ⟨hac, hbc⟩
    exact hac.merge hbc ha hb hc

end Node

end RecordSchema
