import RecordSchema.Proofs.Node.Coverage

/-!
# The merge as the least cover

Coverage is an order on canonical nodes, up to their equality: two of them cover each other if and
only if they are equal, whatever the direction of the comparison (`agrees_iff`).  The merge of two
canonical nodes is their least upper bound in this order (`merge_isLeastCover`).
-/

namespace RecordSchema

/-- Lists without repeated keys that have the same length: if each entry on the left has a partner
with its key on the right, each one on the right is a partner. -/
lemma exists_partner {α κ : Type} {key : α → κ} (partner : α → α → Prop) {xs ys : List α}
    (hxs : (xs.map key).Nodup) (hys : (ys.map key).Nodup) (hlength : xs.length = ys.length)
    (h : ∀ x ∈ xs, ∃ y ∈ ys, key x = key y ∧ partner x y) :
    ∀ y ∈ ys, ∃ x ∈ xs, key x = key y ∧ partner x y := by
  have hsub : xs.map key ⊆ ys.map key := by
    intro k hk
    obtain ⟨x, hx, rfl⟩ := List.mem_map.mp hk
    obtain ⟨y, hy, hkey, -⟩ := h x hx
    exact hkey ▸ List.mem_map_of_mem hy
  have hperm : (xs.map key).Perm (ys.map key) :=
    (hxs.subperm hsub).perm_of_length_le (by simp [hlength])
  intro y hy
  obtain ⟨x, hx, hkey⟩ := List.mem_map.mp (hperm.mem_iff.mpr (List.mem_map_of_mem hy))
  obtain ⟨y', hy', hkey', hpartner⟩ := h x hx
  have heq : y' = y := List.inj_on_of_nodup_map hys hy' hy (hkey'.symm.trans hkey)
  exact ⟨x, hx, hkey, heq ▸ hpartner⟩

namespace Node

/-! ### Equal nodes cover each other -/

lemma kind_eq_of_agrees {swapped : Bool} {a b : Node} (h : agrees swapped a b = true) :
    a.kind = b.kind := by
  cases a <;> cases b <;> first | rfl | simp [agrees] at h

/-- Unions that agree have the same number of alternatives, and each agrees with one on the other
side, on whichever side they are looked up. -/
lemma exists_agreeing_alternative {swapped : Bool} {children others : List Node}
    (h : agrees swapped (.union children) (.union others) = true)
    (hchildren : (families children).Nodup) (hothers : (families others).Nodup) :
    children.length = others.length ∧ ∀ child ∈ children, ∃ other ∈ others,
      child.kind.family = other.kind.family ∧ ∃ direction, agrees direction child other = true := by
  rw [agrees, Bool.and_eq_true, decide_eq_true_eq] at h
  obtain ⟨hlength, h⟩ := h
  refine ⟨hlength, ?_⟩
  cases swapped with
  | false =>
    simp only [Bool.false_eq_true, if_false] at h
    intro child hchild
    obtain ⟨other, hother, hagrees⟩ := (allFound_iff others children).mp h child hchild
    exact ⟨other, hother, by rw [kind_eq_of_agrees hagrees], true, hagrees⟩
  | true =>
    simp only [if_true] at h
    rw [List.all_eq_true] at h
    have hpartner : ∀ other ∈ others, ∃ child ∈ children, other.kind.family = child.kind.family ∧
        ∃ direction, agrees direction child other = true := by
      intro other hother
      obtain ⟨child, hchild, hagrees⟩ := (isFound_iff other children).mp (h other hother)
      exact ⟨child, hchild, by rw [kind_eq_of_agrees hagrees], false, hagrees⟩
    intro child hchild
    obtain ⟨other, hother, hfamily, hagrees⟩ := exists_partner
      (fun other child => ∃ direction, agrees direction child other = true)
      hothers hchildren hlength.symm hpartner child hchild
    exact ⟨other, hother, hfamily.symm, hagrees⟩

lemma mem_of_lookup_eq_some {name : String} {node : Node} {fields : List (String × Node)}
    (h : fields.lookup name = some node) : (name, node) ∈ fields := by
  induction fields with
  | nil => cases h
  | cons field fields ih =>
    rw [List.lookup_cons] at h
    split at h
    · next heq =>
      obtain rfl := eq_of_beq heq
      obtain rfl := Option.some.inj h
      exact List.mem_cons_self
    · exact List.mem_cons_of_mem _ (ih h)

lemma exists_agreeing_field {swapped : Bool} {fields others : List (String × Node)}
    {shapes otherShapes : ShapeSet}
    (h : agrees swapped (.struct fields shapes) (.struct others otherShapes) = true) :
    fields.length = others.length ∧ ∀ field ∈ fields, ∃ other ∈ others,
      field.1 = other.1 ∧ agrees swapped field.2 other.2 = true := by
  rw [agrees, Bool.and_eq_true, decide_eq_true_eq, fieldsAgree_iff] at h
  obtain ⟨hlength, h⟩ := h
  refine ⟨hlength, fun field hfield => ?_⟩
  obtain ⟨node, hlookup, hagrees⟩ := h field hfield
  have hmem : (field.1, node) ∈ others := mem_of_lookup_eq_some hlookup
  exact ⟨(field.1, node), hmem, rfl, hagrees⟩

lemma coveredBy_structs_of_partners {fields others : List (String × Node)}
    {shapes otherShapes : ShapeSet} (hothers : (names others).Nodup)
    (h : ∀ field ∈ fields, ∃ other ∈ others, field.1 = other.1 ∧ CoveredBy field.2 other.2) :
    CoveredBy (.struct fields shapes) (.struct others otherShapes) := by
  refine .structs (fun field hfield => ?_) fun field hfield => ?_
  · obtain ⟨other, hother, hname, -⟩ := h field hfield
    exact hname ▸ List.mem_map_of_mem hother
  · obtain ⟨other, hother, hname, hcovered⟩ := h field hfield
    rwa [hname, fieldNode_of_mem hothers hother]

lemma coveredBy_unions_of_partners {children others : List Node}
    (h : ∀ child ∈ children, ∃ other ∈ others, child.kind ≠ .union ∧ CoveredBy child other) :
    CoveredBy (.union children) (.union others) := by
  refine .union fun child hchild => ?_
  obtain ⟨other, hother, hsingle, hcovered⟩ := h child hchild
  exact .alternative hsingle hother hcovered

/-- Equal nodes cover each other. -/
lemma coveredBy_of_agrees {a b : Node} (ha : a.Canonical) (hb : b.Canonical) {swapped : Bool}
    (h : agrees swapped a b = true) : CoveredBy a b ∧ CoveredBy b a := by
  induction ha generalizing b swapped with
  | struct increasing _ canonical ih =>
    cases hb with
    | struct increasing' _ canonical' =>
      have hnames := nodup_names_of_pairwise increasing
      have hnames' := nodup_names_of_pairwise increasing'
      obtain ⟨hlength, hpartner⟩ := exists_agreeing_field h
      have hpartner' := exists_partner (fun field other => agrees swapped field.2 other.2 = true)
        hnames hnames' hlength hpartner
      constructor
      · refine coveredBy_structs_of_partners hnames' fun field hfield => ?_
        obtain ⟨other, hother, hname, hagrees⟩ := hpartner field hfield
        exact ⟨other, hother, hname, (ih field hfield (canonical' other hother) hagrees).1⟩
      · refine coveredBy_structs_of_partners hnames fun other hother => ?_
        obtain ⟨field, hfield, hname, hagrees⟩ := hpartner' other hother
        exact ⟨field, hfield, hname.symm, (ih field hfield (canonical' other hother) hagrees).2⟩
    | _ => simp [agrees] at h
  | list _ ih =>
    cases hb with
    | list canonical' =>
      rw [agrees] at h
      obtain ⟨hleft, hright⟩ := ih canonical' h
      exact ⟨.lists hleft, .lists hright⟩
    | _ => simp [agrees] at h
  | union _ alternatives _ ih =>
    cases hb with
    | union _ alternatives' canonical' =>
      have hfamilies := nodup_families_iff.mpr alternatives.apart
      have hfamilies' := nodup_families_iff.mpr alternatives'.apart
      obtain ⟨hlength, hpartner⟩ := exists_agreeing_alternative h hfamilies hfamilies'
      have hpartner' := exists_partner
        (fun child other => ∃ direction, agrees direction child other = true)
        hfamilies hfamilies' hlength hpartner
      constructor
      · refine coveredBy_unions_of_partners fun child hchild => ?_
        obtain ⟨other, hother, -, direction, hagrees⟩ := hpartner child hchild
        have hcovered := ih child hchild (canonical' other hother) hagrees
        exact ⟨other, hother, (alternatives.alternative child hchild).2, hcovered.1⟩
      · refine coveredBy_unions_of_partners fun other hother => ?_
        obtain ⟨child, hchild, -, direction, hagrees⟩ := hpartner' other hother
        have hcovered := ih child hchild (canonical' other hother) hagrees
        exact ⟨child, hchild, (alternatives'.alternative other hother).2, hcovered.2⟩
    | _ => simp [agrees] at h
  | floating =>
    cases hb with
    | floating =>
      rw [agrees, Bool.and_eq_true, Double.eqv_iff_atMost, Double.eqv_iff_atMost] at h
      obtain ⟨⟨hlower, hlower'⟩, hupper, hupper'⟩ := h
      exact ⟨.floatings hlower' hupper, .floatings hlower hupper'⟩
    | _ => simp [agrees] at h
  | integer =>
    cases hb with
    | integer =>
      simp only [agrees, Bool.and_eq_true, decide_eq_true_eq] at h
      obtain ⟨rfl, rfl⟩ := h
      exact ⟨.integers le_rfl le_rfl, .integers le_rfl le_rfl⟩
    | _ => simp [agrees] at h
  | null =>
    obtain rfl : null = b := by
      cases hb with
      | null => rfl
      | _ => simp [agrees] at h
    exact ⟨.null hb.ne_void, .null hb.ne_void⟩
  | _ =>
    cases b <;> simp [agrees] at h
    constructor <;> constructor

/-! ### Nodes that cover each other are equal -/

/-- If two nodes cover each other, so do the alternatives of each family. -/
lemma exists_mutual_alternative {a b : Node} (hab : CoveredBy a b) (hba : CoveredBy b a)
    (ha : a.Canonical) (hb : b.Canonical) {child : Node} (hchild : child ∈ a.alternatives) :
    ∃ other ∈ b.alternatives, child.kind.family = other.kind.family ∧
      CoveredBy child other ∧ CoveredBy other child := by
  have hsingle := ha.alternatives.alternative child hchild
  have hpick := pick_of_mem (nodup_families_iff.mpr ha.alternatives.apart) hchild
  have hcovered : CoveredBy child (pick child.kind.family b.alternatives) := by
    have h := (coveredBy_iff_pick ha hb).mp hab child.kind.family
    rwa [hpick] at h
  have hcovered' : CoveredBy (pick child.kind.family b.alternatives) child := by
    have h := (coveredBy_iff_pick hb ha).mp hba child.kind.family
    rwa [hpick] at h
  rcases pick_eq_void_or_mem child.kind.family b.alternatives with hvoid | ⟨hmem, hfamily⟩
  · rw [hvoid] at hcovered
    exact absurd (hcovered.eq_void_of_kind_ne_union hsingle.2) hsingle.1.1
  · exact ⟨_, hmem, hfamily.symm, hcovered, hcovered'⟩

lemma length_alternatives_le {a b : Node} (hab : CoveredBy a b) (hba : CoveredBy b a)
    (ha : a.Canonical) (hb : b.Canonical) : a.alternatives.length ≤ b.alternatives.length := by
  have hsub : families a.alternatives ⊆ families b.alternatives := by
    intro family hfamily
    obtain ⟨child, hchild, rfl⟩ := List.mem_map.mp hfamily
    obtain ⟨other, hother, heq, -⟩ := exists_mutual_alternative hab hba ha hb hchild
    exact heq ▸ List.mem_map_of_mem hother
  have hsubperm := (nodup_families_iff.mpr ha.alternatives.apart).subperm hsub
  simpa only [families, List.length_map] using hsubperm.length_le

/-- Nodes with as many alternatives agree if their alternatives do, one by one. -/
lemma agrees_ofAlternatives {children others : List Node} (swapped : Bool)
    (hlength : children.length = others.length)
    (hchildren : ∀ child ∈ children, ∃ other ∈ others,
      ∀ direction, agrees direction child other = true)
    (hothers : ∀ other ∈ others, ∃ child ∈ children,
      ∀ direction, agrees direction child other = true) :
    agrees swapped (ofAlternatives children) (ofAlternatives others) = true := by
  match children, others, hlength with
  | [], [], _ =>
    show agrees swapped .null .null = true
    rw [agrees]
  | [child], [other], _ =>
    obtain ⟨node, hnode, hagrees⟩ := hchildren child (List.mem_singleton_self child)
    rw [List.mem_singleton.mp hnode] at hagrees
    exact hagrees swapped
  | first :: second :: rest, first' :: second' :: rest', hlength =>
    show agrees swapped (.union _) (.union _) = true
    rw [agrees, Bool.and_eq_true, decide_eq_true_eq]
    refine ⟨hlength, ?_⟩
    -- the side whose alternatives are looked up changes with the direction
    cases swapped with
    | false =>
      simp only [Bool.false_eq_true, if_false]
      refine (allFound_iff _ _).mpr fun child hchild => ?_
      obtain ⟨other, hother, hagrees⟩ := hchildren child hchild
      exact ⟨other, hother, hagrees true⟩
    | true =>
      simp only [if_true]
      refine List.all_eq_true.mpr fun other hother => (isFound_iff _ _).mpr ?_
      obtain ⟨child, hchild, hagrees⟩ := hothers other hother
      exact ⟨child, hchild, hagrees false⟩

/-- Within a family: alternatives that cover each other agree, if their fields and elements do. -/
lemma agrees_of_mutual_alternatives {a b : Node} (hab : CoveredBy a b) (hba : CoveredBy b a)
    (ha : a.Canonical) (hb : b.Canonical) (hunion : a.kind ≠ .union) (hunion' : b.kind ≠ .union)
    (swapped : Bool)
    (ih : ∀ x y, x.size < a.size → x.Canonical → y.Canonical → CoveredBy x y → CoveredBy y x →
      agrees swapped x y = true) : agrees swapped a b = true := by
  cases hab with
  | void => exact absurd rfl ha.ne_void
  | null =>
    cases hba with
    | null => rw [agrees]
    | void => exact absurd rfl hb.ne_void
    | union => exact absurd rfl hunion'
  | boolean | string | binary | timestamp => rw [agrees]
  | binaryString | integerFloating => cases hba
  | integers lower upper =>
    cases hba with
    | integers lower' upper' =>
      rw [agrees, lower.antisymm lower', upper.antisymm upper']
      simp
  | floatings lower upper =>
    cases hba with
    | floatings lower' upper' =>
      rw [agrees, Bool.and_eq_true, Double.eqv_iff_atMost, Double.eqv_iff_atMost]
      exact ⟨⟨lower', lower⟩, upper, upper'⟩
  | @structs fields others _ _ present covered =>
    cases hba with
    | structs present' covered' =>
      have hnames := ha.nodup_names
      have hnames' := hb.nodup_names
      have hsub : names fields ⊆ names others := by
        intro name hname
        obtain ⟨field, hfield, rfl⟩ := List.mem_map.mp hname
        exact present field hfield
      have hsub' : names others ⊆ names fields := by
        intro name hname
        obtain ⟨other, hother, rfl⟩ := List.mem_map.mp hname
        exact present' other hother
      have hlength : fields.length = others.length := by
        have hle := (hnames.subperm hsub).length_le
        have hle' := (hnames'.subperm hsub').length_le
        simp only [names, List.length_map] at hle hle'
        omega
      rw [agrees, Bool.and_eq_true, decide_eq_true_eq, fieldsAgree_iff]
      refine ⟨hlength, fun field hfield => ?_⟩
      obtain ⟨other, hother, hname⟩ := List.mem_map.mp (present field hfield)
      have hleft := covered field hfield
      have hright := covered' other hother
      rw [← hname, fieldNode_of_mem hnames' hother] at hleft
      rw [hname, fieldNode_of_mem hnames hfield] at hright
      refine ⟨other.2, by rw [← hname, lookup_of_mem hnames' hother], ?_⟩
      cases ha with
      | struct _ _ canonical =>
        cases hb with
        | struct _ _ canonical' =>
          have hlt := size_lt_of_mem_fields hfield
          exact ih field.2 other.2 (by simpa only [size] using hlt) (canonical field hfield)
            (canonical' other hother) hleft hright
  | @lists element other covered =>
    cases hba with
    | lists covered' =>
      cases ha with
      | list ha =>
        cases hb with
        | list hb =>
          rw [agrees]
          refine ih element other ?_ ha hb covered covered'
          simp only [size]
          omega
  | alternative => exact absurd rfl hunion'
  | union => exact absurd rfl hunion

/-- Nodes that cover each other are equal. -/
lemma agrees_of_coveredBy {a b : Node} (hab : CoveredBy a b) (hba : CoveredBy b a)
    (ha : a.Canonical) (hb : b.Canonical) (swapped : Bool) : agrees swapped a b = true := by
  induction hsize : a.size using Nat.strong_induction_on generalizing a b swapped with
  | _ bound ih =>
    have agrees_alternative : ∀ child ∈ a.alternatives, ∀ other ∈ b.alternatives,
        CoveredBy child other → CoveredBy other child →
        ∀ direction, agrees direction child other = true := by
      intro child hchild other hother hcovered hcovered' direction
      have hle := size_le_of_mem_alternatives hchild
      exact agrees_of_mutual_alternatives hcovered hcovered' (ha.of_mem_alternatives hchild)
        (hb.of_mem_alternatives hother) (ha.alternatives.alternative child hchild).2
        (hb.alternatives.alternative other hother).2 direction
        fun x y hlt hx hy hxy hyx => ih x.size (by omega) hxy hyx hx hy direction rfl
    have hlength : a.alternatives.length = b.alternatives.length :=
      (length_alternatives_le hab hba ha hb).antisymm (length_alternatives_le hba hab hb ha)
    rw [← ha.ofAlternatives_alternatives, ← hb.ofAlternatives_alternatives]
    refine agrees_ofAlternatives swapped hlength (fun child hchild => ?_) fun other hother => ?_
    · obtain ⟨other, hother, -, hcovered, hcovered'⟩ :=
        exists_mutual_alternative hab hba ha hb hchild
      exact ⟨other, hother, agrees_alternative child hchild other hother hcovered hcovered'⟩
    · obtain ⟨child, hchild, -, hcovered', hcovered⟩ :=
        exists_mutual_alternative hba hab hb ha hother
      exact ⟨child, hchild, agrees_alternative child hchild other hother hcovered hcovered'⟩

/-- Canonical nodes are equal if and only if they cover each other. -/
theorem agrees_iff {a b : Node} (ha : a.Canonical) (hb : b.Canonical) (swapped : Bool) :
    agrees swapped a b = true ↔ CoveredBy a b ∧ CoveredBy b a := by
  constructor
  · intro h
    exact coveredBy_of_agrees ha hb h
  · rintro ⟨hab, hba⟩
    exact agrees_of_coveredBy hab hba ha hb swapped

/-! ### The least cover -/

/-- The node covers both others, and every canonical node that does covers it. -/
structure IsLeastCover (a b cover : Node) : Prop where
  left : CoveredBy a cover
  right : CoveredBy b cover
  least : ∀ {c : Node}, c.Canonical → CoveredBy a c → CoveredBy b c → CoveredBy cover c

/-- The merge of two canonical nodes is their least cover, and every other least cover is equal to
it.  It is equal to the right or the left node if and only if that node covers the other one. -/
theorem merge_isLeastCover {a b : Node} (ha : a.Canonical) (hb : b.Canonical) :
    IsLeastCover a b (a.merge b) ∧
      (∀ {cover : Node}, cover.Canonical → IsLeastCover a b cover →
        (a.merge b).equals cover = true ∧ cover.equals (a.merge b) = true) ∧
      ((a.merge b).equals b = true ↔ CoveredBy a b) ∧
      ((a.merge b).equals a = true ↔ CoveredBy b a) := by
  have hmerge : (a.merge b).Canonical := ha.merge hb
  have hleast : IsLeastCover a b (a.merge b) := by
    refine ⟨?_, ?_, fun hc hac hbc => ?_⟩
    · exact (coveredBy_merge (Or.inr ha) (Or.inr hb)).1
    · exact (coveredBy_merge (Or.inr hb) (Or.inr ha)).2
    · exact hac.merge hbc (Or.inr ha) (Or.inr hb) (Or.inr hc)
  refine ⟨hleast, fun hcover hleast' => ?_, ?_, ?_⟩
  · -- each of two least covers covers the other one
    have hab := hleast.least hcover hleast'.left hleast'.right
    have hba := hleast'.least hmerge hleast.left hleast.right
    exact ⟨(agrees_iff hmerge hcover false).mpr ⟨hab, hba⟩,
      (agrees_iff hcover hmerge false).mpr ⟨hba, hab⟩⟩
  · rw [equals, agrees_iff hmerge hb]
    constructor
    · rintro ⟨hcovered, -⟩
      exact hleast.left.trans hcovered (Or.inr ha) (Or.inr hmerge) (Or.inr hb)
    · intro hcovered
      exact ⟨hleast.least hb hcovered (.refl (Or.inr hb)), hleast.right⟩
  · rw [equals, agrees_iff hmerge ha]
    constructor
    · rintro ⟨hcovered, -⟩
      exact hleast.right.trans hcovered (Or.inr hb) (Or.inr hmerge) (Or.inr ha)
    · intro hcovered
      exact ⟨hleast.least ha (.refl (Or.inr ha)) hcovered, hleast.left⟩

/-- An integer that no double holds is covered by bounds that it rounds to, so a union with these
bounds stays as it is, and it is the least node that covers both. -/
theorem merge_rounded_integer_isLeastCover :
    IsLeastCover (integer 9007199254740993 9007199254740993)
      (union [floating (.number true 0) (.number false 0x4340000000000000), binary])
      ((integer 9007199254740993 9007199254740993).merge
        (union [floating (.number true 0) (.number false 0x4340000000000000), binary])) ∧
    ((integer 9007199254740993 9007199254740993).merge
      (union [floating (.number true 0) (.number false 0x4340000000000000), binary])).equals
        (union [floating (.number true 0) (.number false 0x4340000000000000), binary]) = true := by
  obtain ⟨hleast, -, hright, -⟩ :=
    merge_isLeastCover (a := integer 9007199254740993 9007199254740993)
      (b := union [floating (.number true 0) (.number false 0x4340000000000000), binary])
      (by decide) (by decide)
  refine ⟨hleast, hright.mpr (.alternative (by decide) List.mem_cons_self ?_)⟩
  exact .integerFloating (by decide +kernel) (by decide +kernel)

end Node

end RecordSchema
