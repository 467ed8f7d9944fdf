import RecordSchema.Proofs.Node.LeastCover
import RecordSchema.Proofs.Traversal

/-!
# Equality position by position

The equality of nodes looks fields up by their names and alternatives anywhere among the others,
and on unions it asks one side only.  On canonical nodes this comes to the same as comparing the
two trees position by position: fields and alternatives are in strictly increasing order, so the
partner that is found stands at the same place.

Equality is therefore an equivalence relation on canonical nodes.  It is kept by merging, since
equal nodes are those that cover each other, and equal nodes have the same texts, since no text
shows a bound or a shape (`equals_exact`).
-/

namespace RecordSchema

/-- Lists in strict order of their keys that have the same length: if each entry on the left has a
partner with its key on the right, the partners stand at the same places. -/
lemma forall₂_of_partners {α κ : Type} (key : α → κ) {r : κ → κ → Prop}
    (asymm : ∀ k l, r k l → ¬ r l k) {R : α → α → Prop} {xs ys : List α}
    (hxs : (xs.map key).Pairwise r) (hys : (ys.map key).Pairwise r)
    (hlength : xs.length = ys.length) (h : ∀ x ∈ xs, ∃ y ∈ ys, key x = key y ∧ R x y) :
    List.Forall₂ R xs ys := by
  have nodup : ∀ {ks : List κ}, ks.Pairwise r → ks.Nodup := by
    intro ks hks
    refine hks.imp ?_
    intro k l hkl heq
    rw [heq] at hkl
    exact asymm l l hkl hkl
  have hkeys : xs.map key = ys.map key := by
    refine eq_of_pairwise_of_mem_iff asymm hxs hys fun k => ⟨?_, ?_⟩
    · intro hk
      obtain ⟨x, hx, rfl⟩ := List.mem_map.mp hk
      obtain ⟨y, hy, hkey, -⟩ := h x hx
      rw [hkey]
      exact List.mem_map_of_mem hy
    · intro hk
      obtain ⟨y, hy, rfl⟩ := List.mem_map.mp hk
      obtain ⟨x, hx, hkey, -⟩ := exists_partner R (nodup hxs) (nodup hys) hlength h y hy
      rw [← hkey]
      exact List.mem_map_of_mem hx
  have hplaces : List.Forall₂ (fun x y => key x = key y) xs ys := by
    have heq : List.Forall₂ (· = ·) (xs.map key) (ys.map key) := by
      rw [hkeys]
      exact List.forall₂_refl _
    rwa [List.forall₂_map_left_iff, List.forall₂_map_right_iff] at heq
  refine List.forall₂_iff_zip.mpr ⟨hlength, ?_⟩
  intro x y hxy
  -- the partner of `x` has the key of `y`, and only `y` has it
  have hsame : key x = key y := (List.forall₂_iff_zip.mp hplaces).2 hxy
  obtain ⟨hx, hy⟩ := List.of_mem_zip hxy
  obtain ⟨partner, hpartner, hkey, hR⟩ := h x hx
  have heq : partner = y := List.inj_on_of_nodup_map (nodup hys) hpartner hy (hkey.symm.trans hsame)
  rwa [heq] at hR

namespace Node

/-! ### Definitions -/

mutual

/-- Whether two nodes agree position by position: they have the same kind and the same bounds, the
same field names in the same order, and as many alternatives, and so have their parts, pair by
pair.  Shapes do not count. -/
def coincides : Node → Node → Bool
  | .void, .void | .null, .null | .boolean, .boolean => true
  | .string, .string | .binary, .binary | .timestamp, .timestamp => true
  | .integer a b, .integer c d => decide (a = c) && decide (b = d)
  | .floating a b, .floating c d => a.eqv c && b.eqv d
  | .struct fields _, .struct others _ => fieldsCoincide fields others
  | .list element, .list other => coincides element other
  | .union children, .union others => allCoincide children others
  | _, _ => false

/-- The fields have the same names and coincide, pair by pair. -/
def fieldsCoincide : List (String × Node) → List (String × Node) → Bool
  | [], [] => true
  | (name, node) :: fields, (label, other) :: others =>
    decide (name = label) && coincides node other && fieldsCoincide fields others
  | _, _ => false

/-- The nodes coincide, pair by pair. -/
def allCoincide : List Node → List Node → Bool
  | [], [] => true
  | node :: nodes, other :: others => coincides node other && allCoincide nodes others
  | _, _ => false

end

/-- No text tells one node from the other. -/
structure SameTexts (a b : Node) : Prop where
  typeText : a.typeText = b.typeText
  indented : ∀ indent margin, a.indented indent margin = b.indented indent margin
  tableText : ∀ indent tableName, a.tableText indent tableName = b.tableText indent tableName
  listing : ∀ root, a.listing root = b.listing root

lemma fieldsCoincide_iff (fields others : List (String × Node)) :
    fieldsCoincide fields others = true ↔ List.Forall₂ (fun field other =>
      field.1 = other.1 ∧ coincides field.2 other.2 = true) fields others := by
  induction fields generalizing others with
  | nil =>
    cases others with
    | nil => simp [fieldsCoincide]
    | cons other others => simp [fieldsCoincide]
  | cons field fields ih =>
    cases others with
    | nil => simp [fieldsCoincide]
    | cons other others =>
      rw [fieldsCoincide, Bool.and_eq_true, Bool.and_eq_true, decide_eq_true_eq, ih,
        List.forall₂_cons]

lemma allCoincide_iff (nodes others : List Node) : allCoincide nodes others = true ↔
    List.Forall₂ (fun node other => coincides node other = true) nodes others := by
  induction nodes generalizing others with
  | nil =>
    cases others with
    | nil => simp [allCoincide]
    | cons other others => simp [allCoincide]
  | cons node nodes ih =>
    cases others with
    | nil => simp [allCoincide]
    | cons other others => rw [allCoincide, Bool.and_eq_true, ih, List.forall₂_cons]

lemma names_eq_of_fieldsCoincide {fields others : List (String × Node)}
    (h : List.Forall₂ (fun field other => field.1 = other.1 ∧ coincides field.2 other.2 = true)
      fields others) : names fields = names others := by
  induction h with
  | nil => rfl
  | cons hfield _ ih => rw [names_cons, names_cons, hfield.1, ih]

/-! ### Equality and positions -/

/-- Nodes that coincide agree, whatever the direction of the comparison. -/
lemma agrees_of_coincides {a b : Node} (ha : a.Canonical) (h : coincides a b = true)
    (swapped : Bool) : agrees swapped a b = true := by
  induction ha generalizing b swapped with
  | struct increasing _ _ ih =>
    cases b with
    | struct others otherShapes =>
      rw [coincides, fieldsCoincide_iff] at h
      have hnames : (names others).Nodup := by
        rw [← names_eq_of_fieldsCoincide h]
        exact nodup_names_of_pairwise increasing
      rw [agrees, Bool.and_eq_true, decide_eq_true_eq, fieldsAgree_iff]
      refine ⟨h.length_eq, ?_⟩
      intro field hfield
      obtain ⟨other, hother, hname, hcoincides⟩ := exists_of_mem_left h hfield
      refine ⟨other.2, ?_, ih field hfield hcoincides swapped⟩
      rw [hname, lookup_of_mem hnames hother]
    | _ => simp [coincides] at h
  | list _ ih =>
    cases b with
    | list other =>
      rw [coincides] at h
      rw [agrees]
      exact ih h swapped
    | _ => simp [coincides] at h
  | union _ _ _ ih =>
    cases b with
    | union others =>
      rw [coincides, allCoincide_iff] at h
      rw [agrees, Bool.and_eq_true, decide_eq_true_eq]
      refine ⟨h.length_eq, ?_⟩
      cases swapped with
      | false =>
        simp only [Bool.false_eq_true, if_false]
        rw [allFound_iff]
        intro child hchild
        obtain ⟨other, hother, hcoincides⟩ := exists_of_mem_left h hchild
        exact ⟨other, hother, ih child hchild hcoincides true⟩
      | true =>
        simp only [if_true]
        rw [List.all_eq_true]
        intro other hother
        obtain ⟨child, hchild, hcoincides⟩ := exists_of_mem_right h hother
        exact (isFound_iff other _).mpr ⟨child, hchild, ih child hchild hcoincides false⟩
    | _ => simp [coincides] at h
  | _ =>
    cases b <;> simp only [coincides, Bool.false_eq_true] at h
    all_goals simp [agrees, h]

/-- Canonical nodes that agree coincide, whatever the direction of the comparison. -/
lemma coincides_of_agrees {a b : Node} (ha : a.Canonical) (hb : b.Canonical) {swapped : Bool}
    (h : agrees swapped a b = true) : coincides a b = true := by
  induction ha generalizing b swapped with
  | struct increasing _ _ ih =>
    cases hb with
    | struct increasing' _ canonical' =>
      obtain ⟨hlength, hpartner⟩ := exists_agreeing_field h
      rw [coincides, fieldsCoincide_iff]
      refine forall₂_of_partners Prod.fst (r := (· < ·)) (fun _ _ => String.lt_asymm)
        (List.pairwise_map.mpr increasing) (List.pairwise_map.mpr increasing') hlength ?_
      intro field hfield
      obtain ⟨other, hother, hname, hagrees⟩ := hpartner field hfield
      exact ⟨other, hother, hname, hname, ih field hfield (canonical' other hother) hagrees⟩
    | _ => simp [agrees] at h
  | list _ ih =>
    cases hb with
    | list canonical' =>
      rw [agrees] at h
      rw [coincides]
      exact ih canonical' h
    | _ => simp [agrees] at h
  | union _ alternatives _ ih =>
    cases hb with
    | union _ alternatives' canonical' =>
      obtain ⟨hlength, hpartner⟩ := exists_agreeing_alternative h
        (nodup_families_iff.mpr alternatives.apart) (nodup_families_iff.mpr alternatives'.apart)
      rw [coincides, allCoincide_iff]
      refine forall₂_of_partners (fun child => child.kind.rank) (r := (· < ·))
        (fun _ _ => Nat.lt_asymm) (List.pairwise_map.mpr alternatives.increasing)
        (List.pairwise_map.mpr alternatives'.increasing) hlength ?_
      intro child hchild
      obtain ⟨other, hother, -, direction, hagrees⟩ := hpartner child hchild
      have hrank : child.kind.rank = other.kind.rank := by rw [kind_eq_of_agrees hagrees]
      exact ⟨other, hother, hrank, ih child hchild (canonical' other hother) hagrees⟩
    | _ => simp [agrees] at h
  | _ =>
    cases b <;> simp only [agrees, Bool.false_eq_true] at h
    all_goals simp [coincides, h]

/-- Canonical nodes are equal if and only if they agree position by position. -/
theorem agrees_iff_coincides {a b : Node} (ha : a.Canonical) (hb : b.Canonical) (swapped : Bool) :
    agrees swapped a b = true ↔ coincides a b = true := by
  constructor
  · intro h
    exact coincides_of_agrees ha hb h
  · intro h
    exact agrees_of_coincides ha h swapped

/-! ### Texts -/

/-- Lists that are related entry by entry have the same image if related entries have. -/
lemma map_eq_of_forall₂ {α β : Type} {R : α → α → Prop} {f : α → β} {xs ys : List α}
    (h : List.Forall₂ R xs ys) (hf : ∀ {x y}, R x y → f x = f y) : xs.map f = ys.map f := by
  induction h with
  | nil => rfl
  | cons hxy _ ih => rw [List.map_cons, List.map_cons, hf hxy, ih]

lemma dropZeroSign_eq_of_eqv {x y : Double} (h : x.eqv y = true) :
    x.dropZeroSign = y.dropZeroSign := by
  obtain ⟨⟨m, n, hx, hy, hle⟩, hge⟩ := Double.eqv_iff_atMost.mp h
  have hle' : n ≤ m := (Double.atMost_iff hy hx).mp hge
  rw [Double.dropZeroSign_of_place? hx, Double.dropZeroSign_of_place? hy, le_antisymm hle hle']

/-- The name of a floating-point type depends on the bounds as numbers only. -/
lemma floatingTypeName_eq_of_eqv {a b c d : Double} (hmin : a.eqv c = true)
    (hmax : b.eqv d = true) : floatingTypeName a b = floatingTypeName c d := by
  unfold floatingTypeName
  rw [← Double.exceedsSingle_dropZeroSign a b, dropZeroSign_eq_of_eqv hmin,
    dropZeroSign_eq_of_eqv hmax, Double.exceedsSingle_dropZeroSign]

/-- Nodes without parts that coincide have the same name. -/
lemma primitiveName_eq_of_coincides {a b : Node} (h : coincides a b = true) :
    a.primitiveName = b.primitiveName := by
  cases a with
  | integer min max =>
    cases b with
    | integer low high =>
      simp only [coincides, Bool.and_eq_true, decide_eq_true_eq] at h
      rw [h.1, h.2]
    | _ => simp [coincides] at h
  | floating min max =>
    cases b with
    | floating low high =>
      rw [coincides, Bool.and_eq_true] at h
      exact floatingTypeName_eq_of_eqv h.1 h.2
    | _ => simp [coincides] at h
  | _ =>
    cases b <;> simp [coincides] at h
    all_goals rfl

/-- Induction on two nodes that coincide, with the claim for the fields, the elements and the
alternatives, pair by pair. -/
@[elab_as_elim]
theorem coincides_induction {motive : ∀ a b, coincides a b = true → Prop}
    (named : ∀ a b h, a.IsPrintedByName → b.IsPrintedByName → a.primitiveName = b.primitiveName →
      motive a b h)
    (struct : ∀ fields others shapes otherShapes h, List.Forall₂ (fun field other =>
      field.1 = other.1 ∧ ∃ h, motive field.2 other.2 h) fields others →
        motive (.struct fields shapes) (.struct others otherShapes) h)
    (list : ∀ element other h h', motive element other h → motive (.list element) (.list other) h')
    (union : ∀ children others h, List.Forall₂ (fun child other => ∃ h, motive child other h)
      children others → motive (.union children) (.union others) h)
    {a b : Node} (h : coincides a b = true) : motive a b h := by
  induction a using induction generalizing b with
  | struct fields shapes ih =>
    cases b with
    | struct others otherShapes =>
      have hfields := (fieldsCoincide_iff fields others).mp (by rwa [coincides] at h)
      refine struct fields others shapes otherShapes h (forall₂_of_mem hfields ?_)
      intro field hfield other hcoincides
      exact ⟨hcoincides.1, hcoincides.2, ih field hfield hcoincides.2⟩
    | _ => simp [coincides] at h
  | list element ih =>
    cases b with
    | list other => exact list element other (by rwa [coincides] at h) h (ih _)
    | _ => simp [coincides] at h
  | union children ih =>
    cases b with
    | union others =>
      have hchildren := (allCoincide_iff children others).mp (by rwa [coincides] at h)
      refine union children others h (forall₂_of_mem hchildren ?_)
      intro child hchild other hcoincides
      exact ⟨hcoincides, ih child hchild hcoincides⟩
    | _ => simp [coincides] at h
  | _ =>
    cases b with
    | struct | list | union => simp [coincides] at h
    | _ =>
      exact named _ _ h ⟨rfl, fun _ _ => rfl, fun _ => rfl⟩ ⟨rfl, fun _ _ => rfl, fun _ => rfl⟩
        (primitiveName_eq_of_coincides h)

lemma typeText_eq_of_coincides {a b : Node} (h : coincides a b = true) :
    a.typeText = b.typeText := by
  induction h using coincides_induction with
  | named a b _ ha hb hname => rw [ha.typeText, hb.typeText, hname]
  | struct fields others _ _ _ h =>
    have htexts : fieldTexts fields = fieldTexts others := by
      rw [fieldTexts_eq_map, fieldTexts_eq_map]
      apply map_eq_of_forall₂ h
      rintro field other ⟨hname, -, htext⟩
      rw [hname, htext]
    rw [typeText, typeText, htexts]
  | list element other _ _ h => rw [typeText, typeText, h]
  | union children others _ h =>
    have htexts : typeTexts children = typeTexts others := by
      rw [typeTexts_eq_map, typeTexts_eq_map]
      apply map_eq_of_forall₂ h
      rintro child other ⟨-, htext⟩
      exact htext
    rw [typeText, typeText, htexts]

lemma indented_eq_of_coincides {a b : Node} (h : coincides a b = true) (indent margin : ℤ) :
    a.indented indent margin = b.indented indent margin := by
  induction h using coincides_induction generalizing margin with
  | named a b _ ha hb hname => rw [ha.indented, hb.indented, hname]
  | struct fields others _ _ _ h =>
    have htexts : indentedFields indent margin fields = indentedFields indent margin others := by
      rw [indentedFields_eq_map, indentedFields_eq_map]
      apply map_eq_of_forall₂ h
      rintro field other ⟨hname, -, htext⟩
      rw [hname, htext]
    rw [indented, indented, htexts]
  | list element other _ _ h => rw [indented, indented, h]
  | union children others _ h =>
    have htexts : indentedAll indent (margin + indent) children =
        indentedAll indent (margin + indent) others := by
      rw [indentedAll_eq_map, indentedAll_eq_map]
      apply map_eq_of_forall₂ h
      rintro child other ⟨-, htext⟩
      exact htext _
    rw [indented, indented, htexts]

lemma tableText_eq_of_coincides {a b : Node} (h : coincides a b = true) (indent : ℤ)
    (tableName : String) : a.tableText indent tableName = b.tableText indent tableName := by
  have htext := typeText_eq_of_coincides h
  cases a with
  | struct fields shapes =>
    cases b with
    | struct others otherShapes =>
      rw [coincides, fieldsCoincide_iff] at h
      have hcolumns : fields.map (columnText indent) = others.map (columnText indent) := by
        apply map_eq_of_forall₂ h
        rintro field other ⟨hname, hcoincides⟩
        simp only [columnText, hname, indented_eq_of_coincides hcoincides]
      have hempty : fields.isEmpty = others.isEmpty := by
        cases h with
        | nil => rfl
        | cons => rfl
      simp only [tableText, hcolumns, hempty]
    | _ => simp [coincides] at h
  | _ =>
    cases b <;> simp only [coincides, Bool.false_eq_true] at h
    all_goals simp only [tableText, htext]

/-- Nodes that are leaves themselves have one line, with their type. -/
lemma leafTexts_eq_of_typeText_eq {a b : Node} {path : String} (ha : a.leaves path = [⟨path, a⟩])
    (hb : b.leaves path = [⟨path, b⟩]) (htext : a.typeText = b.typeText) :
    (a.leaves path).map Leaf.text = (b.leaves path).map Leaf.text := by
  rw [ha, hb, List.map_singleton, List.map_singleton, Leaf.text, Leaf.text, htext]

/-- The lines of the leaves below nodes that coincide are the same. -/
lemma leafTexts_eq_of_coincides {a b : Node} (h : coincides a b = true) (path : String) :
    (a.leaves path).map Leaf.text = (b.leaves path).map Leaf.text := by
  induction h using coincides_induction generalizing path with
  | named a b _ ha hb hname =>
    refine leafTexts_eq_of_typeText_eq (ha.leaves path) (hb.leaves path) ?_
    rw [ha.typeText, hb.typeText, hname]
  | struct fields others shapes otherShapes _ h =>
    have htexts :
        fields.map (fun field => (field.2.leaves (path ++ "." ++ field.1)).map Leaf.text) =
          others.map fun other => (other.2.leaves (path ++ "." ++ other.1)).map Leaf.text := by
      apply map_eq_of_forall₂ h
      rintro field other ⟨hname, -, htext⟩
      rw [hname, htext]
    cases h with
    | nil => exact leafTexts_eq_of_typeText_eq rfl rfl rfl
    | cons =>
      simp only [leaves, leavesOfFields_eq_flatMap, List.map_flatMap]
      rw [List.flatMap_def, List.flatMap_def, htexts]
  | list element other _ _ h => exact h _
  | union children others h _ =>
    exact leafTexts_eq_of_typeText_eq rfl rfl (typeText_eq_of_coincides h)

lemma sameTexts_of_coincides {a b : Node} (h : coincides a b = true) : SameTexts a b := by
  refine ⟨typeText_eq_of_coincides h, indented_eq_of_coincides h, tableText_eq_of_coincides h, ?_⟩
  intro root
  rw [Node.listing, Node.listing, leafTexts_eq_of_coincides h]

/-- Merging keeps coverage on both sides. -/
lemma merge_coveredBy_merge {a a' b b' : Node} (ha : a.Canonical) (ha' : a'.Canonical)
    (hb : b.Canonical) (hb' : b'.Canonical) (hleft : CoveredBy a a') (hright : CoveredBy b b') :
    CoveredBy (a.merge b) (a'.merge b') := by
  have hmerge : (a'.merge b').IsSchema := Or.inr (ha'.merge hb')
  obtain ⟨hcover, hcover'⟩ :=
    (merge_coveredBy_iff (Or.inr ha') (Or.inr hb') hmerge).mp (.refl hmerge)
  exact (merge_coveredBy_iff (Or.inr ha) (Or.inr hb) hmerge).mpr
    ⟨hleft.trans hcover (Or.inr ha) (Or.inr ha') hmerge,
      hright.trans hcover' (Or.inr hb) (Or.inr hb') hmerge⟩

/-- The equality of canonical nodes holds if and only if they agree position by position.  It is
reflexive, symmetric and transitive, and if both parts of a merge are replaced by equal nodes, then
the merge is replaced by an equal node; equal nodes have the same texts. -/
theorem equals_exact :
    (∀ {a b : Node}, a.Canonical → b.Canonical → (a.equals b = true ↔ coincides a b = true)) ∧
    Equivalence (fun a b : {node : Node // node.Canonical} => a.1.equals b.1 = true) ∧
    ∀ {a a' b b' : Node}, a.Canonical → a'.Canonical → b.Canonical → b'.Canonical →
      a.equals a' = true → b.equals b' = true →
      (a.merge b).equals (a'.merge b') = true ∧ SameTexts a a' ∧
        SameTexts (a.merge b) (a'.merge b') := by
  refine ⟨fun ha hb => agrees_iff_coincides ha hb false, ⟨?_, ?_, ?_⟩, ?_⟩
  · rintro ⟨a, ha⟩
    exact (agrees_iff ha ha false).mpr ⟨.refl (Or.inr ha), .refl (Or.inr ha)⟩
  · rintro ⟨a, ha⟩ ⟨b, hb⟩ h
    obtain ⟨hab, hba⟩ := (agrees_iff ha hb false).mp h
    exact (agrees_iff hb ha false).mpr ⟨hba, hab⟩
  · rintro ⟨a, ha⟩ ⟨b, hb⟩ ⟨c, hc⟩ h h'
    obtain ⟨hab, hba⟩ := (agrees_iff ha hb false).mp h
    obtain ⟨hbc, hcb⟩ := (agrees_iff hb hc false).mp h'
    exact (agrees_iff ha hc false).mpr
      ⟨hab.trans hbc (Or.inr ha) (Or.inr hb) (Or.inr hc),
        hcb.trans hba (Or.inr hc) (Or.inr hb) (Or.inr ha)⟩
  · intro a a' b b' ha ha' hb hb' h h'
    obtain ⟨haa', ha'a⟩ := (agrees_iff ha ha' false).mp h
    obtain ⟨hbb', hb'b⟩ := (agrees_iff hb hb' false).mp h'
    have hmerge : (a.merge b).equals (a'.merge b') = true :=
      (agrees_iff (ha.merge hb) (ha'.merge hb') false).mpr
        ⟨merge_coveredBy_merge ha ha' hb hb' haa' hbb',
          merge_coveredBy_merge ha' ha hb' hb ha'a hb'b⟩
    refine ⟨hmerge, ?_, ?_⟩
    · exact sameTexts_of_coincides (coincides_of_agrees ha ha' h)
    · exact sameTexts_of_coincides (coincides_of_agrees (ha.merge hb) (ha'.merge hb') hmerge)

/-- Unions of a struct and a floating-point type that differ in a shape and in the sign of a zero
are equal: they agree position by position, and merged with the same node they stay equal and show
the same texts. -/
theorem equals_exact_zeros :
    let left := union [floating (.number true 0) (.number false 0),
      struct [("a", boolean)] (.ofList ["a"])]
    let right := union [floating (.number false 0) (.number false 0),
      struct [("a", boolean)] (.ofList ["a", ""])]
    left.equals right = true ∧ right.equals left = true ∧
      (left.merge (list string)).equals (right.merge (list string)) = true ∧
      SameTexts (left.merge (list string)) (right.merge (list string)) := by
  intro left right
  have hleft : left.Canonical := by decide
  have hright : right.Canonical := by decide
  have hlist : (list string).Canonical := by decide
  obtain ⟨hpositions, hequivalence, hcongruence⟩ := equals_exact
  have hequal : left.equals right = true := (hpositions hleft hright).mpr (by decide)
  have hself : (list string).equals (list string) = true := (hpositions hlist hlist).mpr (by decide)
  obtain ⟨hmerge, -, htexts⟩ := hcongruence hleft hright hlist hlist hequal hself
  exact ⟨hequal, hequivalence.symm (x := ⟨left, hleft⟩) (y := ⟨right, hright⟩) hequal, hmerge,
    htexts⟩

end Node

end RecordSchema
