import RecordSchema.Proofs.Render.Skeleton
import RecordSchema.Proofs.Render.Widths

/-!
# Types of merges

The type of a merge depends on the types of the two sides only: nodes of the same skeletons merge
into nodes of the same skeleton (`skeleton_merge_eq`).

As for the laws of merging, it is enough to have this for every family of alternatives, and there
it holds of the nodes of the fields or of the element, which are smaller.  Bounds come in only for
numbers, whose names are those of the wider types.  `typeText_merge` says all of this of the types
that are printed.
-/

namespace RecordSchema

namespace Node

/-! ### Skeletons of parts -/

/-- Nodes of one skeleton have alternatives of the same skeletons. -/
lemma skeletons_alternatives_eq {a b : Node} (h : a.skeleton = b.skeleton) :
    a.alternatives.map skeleton = b.alternatives.map skeleton := by
  have hkind := kind_eq_of_skeleton_eq h
  by_cases hunion : a.kind = .union
  · obtain ⟨children, rfl⟩ := eq_union_of_kind hunion
    obtain ⟨others, rfl, hchildren⟩ := skeleton_eq_union_iff.mp h.symm
    rw [skeletonsOfAll_eq_map] at hchildren
    exact hchildren.symm
  rcases eq_void_or_eq_null_or_isPresent a with rfl | rfl | hpresent
  · rw [eq_void_of_skeleton_eq h.symm]
  · cases b with
    | null => rfl
    | _ => cases hkind
  · have ha : a.IsAlternative := ⟨hpresent, hunion⟩
    have hb : b.IsAlternative := ha.of_family_eq (congrArg Kind.family hkind.symm)
    rw [alternatives_of_isAlternative ha, alternatives_of_isAlternative hb, List.map_singleton,
      List.map_singleton, h]

/-- Lists of the same skeletons have alternatives of the same skeleton in every family. -/
lemma skeleton_pick_eq (family : Kind) {nodes others : List Node}
    (h : nodes.map skeleton = others.map skeleton) :
    (pick family nodes).skeleton = (pick family others).skeleton := by
  induction nodes generalizing others with
  | nil => rw [List.map_eq_nil_iff.mp h.symm]
  | cons node nodes ih =>
    cases others with
    | nil => cases h
    | cons other others =>
      simp only [List.map_cons, List.cons.injEq] at h
      rw [pick_cons, pick_cons, kind_eq_of_skeleton_eq h.1]
      split
      · exact h.1
      · exact ih h.2

/-- Fields of the same names and skeletons have nodes of the same skeleton for every name. -/
lemma skeleton_fieldNode_eq (name : String) {fields others : List (String × Node)}
    (h : fields.map (fun field => (field.1, field.2.skeleton)) =
      others.map fun field => (field.1, field.2.skeleton)) :
    (fieldNode name fields).skeleton = (fieldNode name others).skeleton := by
  induction fields generalizing others with
  | nil => rw [List.map_eq_nil_iff.mp h.symm]
  | cons field fields ih =>
    cases others with
    | nil => cases h
    | cons other others =>
      simp only [List.map_cons, List.cons.injEq, Prod.mk.injEq] at h
      rw [fieldNode_cons, fieldNode_cons, h.1.1]
      split
      · exact h.1.2
      · exact ih h.2

/-! ### Skeletons from parts -/

lemma skeleton_ofAlternatives_eq {nodes others : List Node}
    (h : nodes.map skeleton = others.map skeleton) :
    (ofAlternatives nodes).skeleton = (ofAlternatives others).skeleton := by
  match nodes, others with
  | [], [] => rfl
  | [node], [other] =>
    rw [List.map_singleton, List.map_singleton, List.singleton_inj] at h
    exact h
  | _ :: _ :: _, _ :: _ :: _ =>
    simp only [ofAlternatives, skeleton, skeletonsOfAll_eq_map]
    exact congrArg _ h
  | [], _ :: _ | [_], [] | [_], _ :: _ :: _ | _ :: _ :: _, [] | _ :: _ :: _, [_] => simp at h

/-- Canonical nodes whose alternatives have the same skeleton in every family have the same
skeleton. -/
lemma skeleton_eq_of_pick {a b : Node} (ha : a.Canonical) (hb : b.Canonical)
    (h : ∀ family, (pick family a.alternatives).skeleton = (pick family b.alternatives).skeleton) :
    a.skeleton = b.skeleton := by
  have halternatives := map_alternatives_eq kind_eq_of_skeleton_eq ha hb h
  rw [← ha.ofAlternatives_alternatives, ← hb.ofAlternatives_alternatives]
  exact skeleton_ofAlternatives_eq halternatives

/-- Canonical structs whose nodes have the same skeleton for every name have the same skeleton. -/
lemma skeleton_struct_eq_of_fieldNode {fields others : List (String × Node)}
    {shapes otherShapes : ShapeSet} (h : Canonical (.struct fields shapes))
    (h' : Canonical (.struct others otherShapes))
    (heq : ∀ name, (fieldNode name fields).skeleton = (fieldNode name others).skeleton) :
    (struct fields shapes).skeleton = (struct others otherShapes).skeleton := by
  cases h with
  | struct increasing _ canonical =>
    cases h' with
    | struct increasing' _ canonical' =>
      have hfields := map_fields_eq eq_void_of_skeleton_eq increasing increasing'
        (fun field hfield => (canonical field hfield).ne_void)
        (fun field hfield => (canonical' field hfield).ne_void) heq
      simp only [skeleton, skeletonsOfFields_eq_map, hfields]

/-! ### Merges -/

/-- Merged numbers are integers if both sides are. -/
lemma kind_merge_of_numbers {a b : Node} (hfamily : a.kind.family = .floating)
    (hfamily' : b.kind.family = .floating) :
    (a.merge b).kind = if a.kind = .integer then b.kind else .floating := by
  have hab : Alike a b := alike_of_family_eq (hfamily.trans hfamily'.symm)
  cases hab with
  | integers => rw [merge_integers]; rfl
  | floatings => rw [merge_floatings]; rfl
  | integerFloating => rw [merge_integer_floating]; rfl
  | floatingInteger => rw [merge_floating_integer]; rfl
  | _ => simp [kind, Kind.family] at hfamily

/-- Numbers of the same kinds and types merge into a number of the same kind and type. -/
lemma skeleton_merge_of_numbers {a b a' b' : Node} (ha : a.Canonical) (hb : b.Canonical)
    (ha' : a'.Canonical) (hb' : b'.Canonical) (hfamily : a.kind.family = .floating)
    (hfamily' : b.kind.family = .floating) (h : a.skeleton = a'.skeleton)
    (h' : b.skeleton = b'.skeleton) : (a.merge b).skeleton = (a'.merge b').skeleton := by
  have hkind := kind_eq_of_skeleton_eq h
  have hkind' := kind_eq_of_skeleton_eq h'
  have hname := primitiveName_eq_of_skeleton_eq h
  have hname' := primitiveName_eq_of_skeleton_eq h'
  have hother : a'.kind.family = .floating := hkind ▸ hfamily
  have hother' : b'.kind.family = .floating := hkind' ▸ hfamily'
  have hmerge := (keepsFamily_merge a b (hfamily.trans hfamily'.symm)).trans hfamily
  have hmerge' := (keepsFamily_merge a' b' (hother.trans hother'.symm)).trans hother
  have hwidth : typeWidth (a.merge b).primitiveName = typeWidth (a'.merge b').primitiveName := by
    rw [typeWidth_merge ha hb hfamily hfamily', typeWidth_merge ha' hb' hother hother', hname,
      hname']
  have hnames := eq_of_typeWidth_eq _ (primitiveName_mem hmerge) _ (primitiveName_mem hmerge')
    hwidth
  have hkinds : (a.merge b).kind = (a'.merge b').kind := by
    rw [kind_merge_of_numbers hfamily hfamily', kind_merge_of_numbers hother hother', hkind, hkind']
  rw [skeleton_of_isLeaf (isLeaf_of_family hmerge), skeleton_of_isLeaf (isLeaf_of_family hmerge'),
    hkinds, hnames]

/-- Alternatives of one family. -/
lemma skeleton_merge_of_alike {a b a' b' : Node} (hab : Alike a b) (hunion : a.kind ≠ .union)
    (ha : Plain a) (hb : Plain b) (ha' : Plain a') (hb' : Plain b') (h : a.skeleton = a'.skeleton)
    (h' : b.skeleton = b'.skeleton)
    (ih : ∀ x y x' y', x.size + y.size < a.size + b.size → Plain x → Plain y → Plain x' →
      Plain y' → x.skeleton = x'.skeleton → y.skeleton = y'.skeleton →
        (x.merge y).skeleton = (x'.merge y').skeleton) :
    (a.merge b).skeleton = (a'.merge b').skeleton := by
  cases hab with
  | integers | floatings | integerFloating | floatingInteger =>
    refine skeleton_merge_of_numbers (ha.canonical (by simp)) (hb.canonical (by simp))
      (ha'.canonical ?_) (hb'.canonical ?_) rfl rfl h h'
    · rintro rfl
      cases h
    · rintro rfl
      cases h'
  | structs fields others shapes otherShapes =>
    obtain ⟨fields', shapes', rfl, hfields⟩ := skeleton_eq_struct_iff.mp h.symm
    obtain ⟨others', otherShapes', rfl, hothers⟩ := skeleton_eq_struct_iff.mp h'.symm
    rw [skeletonsOfFields_eq_map] at hfields hothers
    have hmerge := (ha.canonical (by simp)).merge (hb.canonical (by simp))
    have hmerge' := (ha'.canonical (by simp)).merge (hb'.canonical (by simp))
    rw [merge_structs] at hmerge hmerge' ⊢
    rw [merge_structs]
    refine skeleton_struct_eq_of_fieldNode hmerge hmerge' fun name => ?_
    have hnode := skeleton_fieldNode_eq name hfields.symm
    have hnode' := skeleton_fieldNode_eq name hothers.symm
    rw [fieldNode_sortFields_mergeFields name (ha.canonical (by simp)).nodup_names
        (hb.canonical (by simp)).nodup_names,
      fieldNode_sortFields_mergeFields name (ha'.canonical (by simp)).nodup_names
        (hb'.canonical (by simp)).nodup_names]
    by_cases hvoid : fieldNode name fields = .void
    · rw [hvoid] at hnode ⊢
      rwa [eq_void_of_skeleton_eq hnode.symm, merge_void_left, merge_void_left]
    by_cases hvoid' : fieldNode name others = .void
    · rw [hvoid'] at hnode' ⊢
      rwa [eq_void_of_skeleton_eq hnode'.symm, merge_void_right, merge_void_right]
    · have := size_fieldNode_lt hvoid shapes
      have := size_fieldNode_lt hvoid' otherShapes
      exact ih _ _ _ _ (by omega) (ha.fieldNode name) (hb.fieldNode name) (ha'.fieldNode name)
        (hb'.fieldNode name) hnode hnode'
  | lists element other =>
    obtain ⟨element', rfl, helement⟩ := skeleton_eq_list_iff.mp h.symm
    obtain ⟨other', rfl, hother⟩ := skeleton_eq_list_iff.mp h'.symm
    have hlt : element.size + other.size < (list element).size + (list other).size := by
      simp only [size]
      omega
    rw [merge_lists, merge_lists]
    exact congrArg Skeleton.list (ih element other element' other' hlt ha.element hb.element
      ha'.element hb'.element helement.symm hother.symm)
  | unions => exact absurd rfl hunion
  | _ =>
    -- nodes without bounds are known by their kinds
    have heq := eq_of_skeleton_eq (by decide) h
    have heq' := eq_of_skeleton_eq (by decide) h'
    rw [← heq, ← heq']

/-- Schemas of the same skeletons merge into schemas of the same skeleton. -/
lemma Plain.skeleton_merge_eq {a b a' b' : Node} (ha : Plain a) (hb : Plain b) (ha' : Plain a')
    (hb' : Plain b') (h : a.skeleton = a'.skeleton) (h' : b.skeleton = b'.skeleton) :
    (a.merge b).skeleton = (a'.merge b').skeleton := by
  induction hsize : a.size + b.size using Nat.strong_induction_on generalizing a b a' b' with
  | _ bound ih =>
    by_cases hvoid : a = .void
    · rw [hvoid] at h ⊢
      rwa [eq_void_of_skeleton_eq h.symm, merge_void_left, merge_void_left]
    by_cases hvoid' : b = .void
    · rw [hvoid'] at h' ⊢
      rwa [eq_void_of_skeleton_eq h'.symm, merge_void_right, merge_void_right]
    have hother : a' ≠ .void := fun heq => hvoid (eq_void_of_skeleton_eq (heq ▸ h))
    have hother' : b' ≠ .void := fun heq => hvoid' (eq_void_of_skeleton_eq (heq ▸ h'))
    have hcanonical := (ha.canonical hvoid).merge (hb.canonical hvoid')
    have hcanonical' := (ha'.canonical hother).merge (hb'.canonical hother')
    refine skeleton_eq_of_pick hcanonical hcanonical' fun family => ?_
    have hpick := skeleton_pick_eq family (skeletons_alternatives_eq h)
    have hpick' := skeleton_pick_eq family (skeletons_alternatives_eq h')
    rw [ha.pick_merge hb, ha'.pick_merge hb']
    rcases pick_eq_void_or_mem family a.alternatives with hnone | ⟨hmem, hfamily⟩
    · rw [hnone] at hpick ⊢
      rwa [eq_void_of_skeleton_eq hpick.symm, merge_void_left, merge_void_left]
    rcases pick_eq_void_or_mem family b.alternatives with hnone | ⟨hmem', hfamily'⟩
    · rw [hnone] at hpick' ⊢
      rwa [eq_void_of_skeleton_eq hpick'.symm, merge_void_right, merge_void_right]
    have hle := size_le_of_mem_alternatives hmem
    have hle' := size_le_of_mem_alternatives hmem'
    exact skeleton_merge_of_alike (alike_of_family_eq (hfamily.trans hfamily'.symm))
      ((ha.canonical hvoid).alternatives.alternative _ hmem).2 (ha.pick family) (hb.pick family)
      (ha'.pick family) (hb'.pick family) hpick hpick'
      fun x y x' y' hlt hx hy hx' hy' h h' =>
        ih (x.size + y.size) (by omega) hx hy hx' hy' h h' rfl

/-- Schemas of the same skeletons merge into schemas of the same skeleton, signs of zeros or not. -/
theorem skeleton_merge_eq {a b a' b' : Node} (ha : a.IsSchema) (hb : b.IsSchema)
    (ha' : a'.IsSchema) (hb' : b'.IsSchema) (h : a.skeleton = a'.skeleton)
    (h' : b.skeleton = b'.skeleton) : (a.merge b).skeleton = (a'.merge b').skeleton := by
  rw [← skeleton_dropZeroSigns (a.merge b), ← skeleton_dropZeroSigns (a'.merge b'),
    dropZeroSigns_merge, dropZeroSigns_merge]
  refine (Plain.of_isSchema ha).skeleton_merge_eq (Plain.of_isSchema hb) (Plain.of_isSchema ha')
    (Plain.of_isSchema hb') ?_ ?_
  · rw [skeleton_dropZeroSigns, skeleton_dropZeroSigns, h]
  · rw [skeleton_dropZeroSigns, skeleton_dropZeroSigns, h']

/-- The type that is printed for a merge depends on the types of the two sides only, and the one
for numbers is the wider of the two, at every path: a wider integer type for integers, and the same
floating-point type if integers are merged into it.  More records never make it narrower. -/
theorem typeText_merge :
    (∀ {a b a' b' : Node}, a.IsSchema → b.IsSchema → a'.IsSchema → b'.IsSchema →
      a.skeleton = a'.skeleton → b.skeleton = b'.skeleton →
        (a.merge b).typeText = (a'.merge b').typeText) ∧
    (∀ {a b : Node}, a.IsSchema → b.IsSchema → ∀ path,
      (a.merge b).numberWidth path = max (a.numberWidth path) (b.numberWidth path)) ∧
    (∀ {min max : Double} {x y : ℤ}, Canonical (.floating min max) → Canonical (.integer x y) →
      ((floating min max).merge (integer x y)).typeText = (floating min max).typeText ∧
        ((integer x y).merge (floating min max)).typeText = (floating min max).typeText) ∧
    ∀ {detection : Detection} {records others : List Value}, (∀ record ∈ others, record.Clean) →
      records ⊆ others → ∀ {node wider : Node}, infer detection records = .ok node →
        infer detection others = .ok wider → ∀ path,
          node.numberWidth path ≤ wider.numberWidth path := by
  refine ⟨?_, ?_, ?_, ?_⟩
  · intro a b a' b' ha hb ha' hb' h h'
    exact typeText_eq_of_skeleton_eq (skeleton_merge_eq ha hb ha' hb' h h')
  · intro a b ha hb path
    exact numberWidth_merge ha hb path
  · intro min max x y h h'
    have htext := typeText_floating_merge_integer h h'
    refine ⟨htext, ?_⟩
    rwa [merge_integer_floating, ← merge_floating_integer]
  · intro detection records others hclean hsubset node wider h h' path
    exact numberWidth_le_of_subset hclean hsubset h h' path

/-- Bounds at the two ends of their types, below a struct and within a union, and an integer of 64
bits that is merged into numbers of 32 bits. -/
theorem typeText_merge_of_bounds :
    let narrow := struct [("n", integer 0 5), ("v", union [integer 1 300, string])] .empty
    let narrow' := struct [("n", integer (-128) 127), ("v", union [integer 128 32767, string])] .empty
    let wide := struct [("n", integer 0 70000), ("v", floating (.ofPlace 0) (.ofPlace 0x3ff0000000000000))] .empty
    let wide' := struct [("n", integer 0 40000), ("v", floating (.ofPlace 1) (.ofPlace 2))] .empty
    (narrow.merge wide).typeText = (narrow'.merge wide').typeText ∧
      (narrow.merge wide).numberWidth [.field "v"] =
        max (narrow.numberWidth [.field "v"]) (wide.numberWidth [.field "v"]) ∧
      ((floating (.ofPlace 1) (.ofPlace 2)).merge (integer 0 maxLong)).typeText =
        (floating (.ofPlace 1) (.ofPlace 2)).typeText ∧
      ∃ node wider, infer {} [.integer 5] = .ok node ∧
        infer {} [.integer 300, .integer 5] = .ok wider ∧
          node.numberWidth [] ≤ wider.numberWidth [] := by
  intro narrow narrow' wide wide'
  obtain ⟨hcongr, hwidth, hinteger, hrecords⟩ := typeText_merge
  have hnarrow : narrow.IsSchema := Or.inr (by decide)
  have hnarrow' : narrow'.IsSchema := Or.inr (by decide)
  have hwide : wide.IsSchema := Or.inr (by decide +kernel)
  have hwide' : wide'.IsSchema := Or.inr (by decide +kernel)
  obtain ⟨node, hnode⟩ : ∃ node, infer {} [.integer 5] = .ok node := ⟨_, rfl⟩
  obtain ⟨wider, hwider⟩ : ∃ wider, infer {} [.integer 300, .integer 5] = .ok wider := ⟨_, rfl⟩
  have hmore := hrecords (by decide) (List.subset_cons_self _ _) hnode hwider []
  exact ⟨hcongr hnarrow hwide hnarrow' hwide' rfl rfl, hwidth hnarrow hwide _,
    (hinteger (by decide) (by decide)).1, node, wider, hnode, hwider, hmore⟩

end Node

end RecordSchema
