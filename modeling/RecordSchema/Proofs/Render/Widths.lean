import RecordSchema.Proofs.Inference.NumericType

/-!
# Widths of number types

The types of numbers are ordered by their width, the four integer types below the two
floating-point types.  The type of merged numbers is the wider one of the two types
(`typeWidth_merge`), although it is computed from the merged bounds: an integer type holds an
interval, and a floating-point type a symmetric range of places, in which every integer of 64 bits
lies.

So at every path the numbers of a merge have the wider one of the two types there
(`numberWidth_merge`), and those of many records the widest one.  More records never make it
narrower (`numberWidth_le_of_subset`).
-/

namespace RecordSchema

variable {detection : Detection}

/-! ### Names of number types -/

/-- The types of numbers, from the narrowest to the widest. -/
def numberTypeNames : List String := ["tinyint", "smallint", "int", "bigint", "float", "double"]

/-- The place of a type among those of numbers, counted from one.  Other types have no width. -/
def typeWidth (name : String) : ℕ := ((numberTypeNames.idxOf? name).map (· + 1)).getD 0

/-- A type of numbers is known by its width. -/
lemma eq_of_typeWidth_eq : ∀ name ∈ numberTypeNames, ∀ other ∈ numberTypeNames,
    typeWidth name = typeWidth other → name = other := by
  decide

lemma typeWidth_le_six : ∀ {name : String}, name ∈ numberTypeNames → typeWidth name ≤ 6 := by
  decide

lemma integerTypeName_mem (min max : ℤ) : integerTypeName min max ∈ numberTypeNames := by
  unfold integerTypeName
  split_ifs <;> decide

lemma floatingTypeName_mem (min max : Double) : floatingTypeName min max ∈ numberTypeNames := by
  rcases floatingTypeName_eq_or min max with h | h <;> rw [h] <;> decide

/-! ### Integers -/

namespace IntegerType

lemma typeWidth_le_iff (type other : IntegerType) :
    typeWidth type.name ≤ typeWidth other.name ↔ type.bits ≤ other.bits := by
  cases type <;> cases other <;> decide

/-- A wider type holds what a narrower one holds. -/
lemma Holds.widen {type other : IntegerType} {n : ℤ} (h : type.Holds n)
    (hbits : type.bits ≤ other.bits) : other.Holds n := by
  obtain ⟨hlow, hhigh⟩ := h
  have hpower : (2 : ℤ) ^ (type.bits - 1) ≤ 2 ^ (other.bits - 1) :=
    pow_le_pow_right₀ (by norm_num) (by omega)
  exact ⟨by omega, by omega⟩

/-- The narrowest type for the integers of two sets is the wider one of those for each set. -/
lemma IsNarrowest.union {type other wider : IntegerType} {integers others : Set ℤ}
    (h : type.IsNarrowest integers) (h' : other.IsNarrowest others)
    (hwider : wider.IsNarrowest (integers ∪ others)) :
    typeWidth wider.name = max (typeWidth type.name) (typeWidth other.name) := by
  refine le_antisymm ?_ (max_le ?_ ?_)
  · -- whichever of the two is wider holds the integers of both sets
    rcases Nat.le_total type.bits other.bits with hbits | hbits
    · refine le_max_of_le_right ((typeWidth_le_iff _ _).mpr (hwider.2 _ ?_))
      rintro n (hn | hn)
      · exact (h.1 n hn).widen hbits
      · exact h'.1 n hn
    · refine le_max_of_le_left ((typeWidth_le_iff _ _).mpr (hwider.2 _ ?_))
      rintro n (hn | hn)
      · exact h.1 n hn
      · exact (h'.1 n hn).widen hbits
  · exact (typeWidth_le_iff _ _).mpr (h.2 _ fun n hn => hwider.1 n (Or.inl hn))
  · exact (typeWidth_le_iff _ _).mpr (h'.2 _ fun n hn => hwider.1 n (Or.inr hn))

end IntegerType

/-- The integers between bounds of 64 bits fit 64 bits. -/
lemma fitsLong_of_mem_Icc {min max n : ℤ} (h : Node.Canonical (.integer min max))
    (hn : n ∈ Set.Icc min max) : FitsLong n := by
  cases h with
  | integer lower _ upper => exact ⟨lower.trans hn.1, hn.2.trans upper⟩

/-- The type of merged ranges of integers is the wider one of their types. -/
lemma typeWidth_integers {x y z w : ℤ} (h : Node.Canonical (.integer x y))
    (h' : Node.Canonical (.integer z w)) :
    typeWidth (integerTypeName (min x z) (max y w)) =
      max (typeWidth (integerTypeName x y)) (typeWidth (integerTypeName z w)) := by
  have hfits : ∀ n ∈ Set.Icc x y, FitsLong n := fun n hn => fitsLong_of_mem_Icc h hn
  have hfits' : ∀ n ∈ Set.Icc z w, FitsLong n := fun n hn => fitsLong_of_mem_Icc h' hn
  cases h with
  | integer _ ordered _ =>
    cases h' with
    | integer _ ordered' _ =>
      have hleast := isLeast_Icc ordered
      have hleast' := isLeast_Icc ordered'
      have hgreatest := isGreatest_Icc ordered
      have hgreatest' := isGreatest_Icc ordered'
      obtain ⟨type, hname, hnarrowest⟩ := exists_isNarrowest hleast hgreatest hfits
      obtain ⟨other, hname', hnarrowest'⟩ := exists_isNarrowest hleast' hgreatest' hfits'
      obtain ⟨wider, hname'', hnarrowest''⟩ := exists_isNarrowest (hleast.union hleast')
        (hgreatest.union hgreatest') fun n hn => hn.elim (hfits n) (hfits' n)
      rw [hname, hname', hname'']
      exact hnarrowest.union hnarrowest' hnarrowest''

/-! ### Floating-point numbers -/

/-- The place of the greatest number of the 32-bit format. -/
def singlePlace : ℤ := 0x47efffffe0000000

/-- The double nearest to an integer of 64 bits stays within the 32-bit format. -/
lemma abs_placeOfInt_le {n : ℤ} (h : FitsLong n) : |Double.placeOfInt n| ≤ singlePlace := by
  have hlow : -singlePlace ≤ Double.placeOfInt minLong := by decide +kernel
  have hhigh : Double.placeOfInt maxLong ≤ singlePlace := by decide +kernel
  exact abs_le.mpr ⟨hlow.trans (Double.placeOfInt_mono h.1),
    (Double.placeOfInt_mono h.2).trans hhigh⟩

namespace Node

lemma primitiveName_mem {node : Node} (h : node.kind.family = .floating) :
    node.primitiveName ∈ numberTypeNames := by
  cases node with
  | integer min max => exact integerTypeName_mem min max
  | floating min max => exact floatingTypeName_mem min max
  | _ => simp [kind, Kind.family] at h

/-- A node for numbers that are not all integers has one of the two widest types. -/
lemma typeWidth_of_kind {node : Node} (h : node.kind = .floating) :
    typeWidth node.primitiveName = 5 ∨ typeWidth node.primitiveName = 6 := by
  cases node with
  | floating min max =>
    rcases floatingTypeName_eq_or min max with hname | hname
    · rw [primitiveName, hname]
      exact Or.inl rfl
    · rw [primitiveName, hname]
      exact Or.inr rfl
  | _ => cases h

/-- The type of numbers is `double` only if they go beyond the 32-bit format. -/
lemma typeWidth_le_five_iff {node : Node} (hnode : node.Canonical) {x y : ℤ}
    (h : Spans node x y) :
    typeWidth node.primitiveName ≤ 5 ↔ |x| ≤ singlePlace ∧ |y| ≤ singlePlace := by
  cases h with
  | integer min max =>
    cases hnode with
    | integer lower ordered upper =>
      have hmin := abs_placeOfInt_le ⟨lower, ordered.trans upper⟩
      have hmax := abs_placeOfInt_le ⟨lower.trans ordered, upper⟩
      refine iff_of_true ?_ ⟨hmin, hmax⟩
      show typeWidth (integerTypeName min max) ≤ 5
      unfold integerTypeName
      split_ifs <;> decide
  | @floating min max _ _ lower upper =>
    have hsingle : |x| ≤ singlePlace ∧ |y| ≤ singlePlace ↔ min.FitsSingle ∧ max.FitsSingle :=
      and_congr (Double.fitsSingle_iff lower).symm (Double.fitsSingle_iff upper).symm
    have hexceeds := Double.exceedsSingle_iff lower upper
    rw [hsingle]
    show typeWidth (floatingTypeName min max) ≤ 5 ↔ _
    unfold floatingTypeName
    split
    · next h => exact iff_of_false (by decide) (hexceeds.mp h)
    · next h => exact iff_of_true (by decide) (not_not.mp (mt hexceeds.mpr h))

lemma Spans.le {node : Node} (hnode : node.Canonical) {x y : ℤ} (h : Spans node x y) : x ≤ y := by
  cases h with
  | integer min max =>
    cases hnode with
    | integer _ ordered _ => exact Double.placeOfInt_mono ordered
  | floating lower upper =>
    cases hnode with
    | floating ordered => exact (Double.atMost_iff lower upper).mp ordered

/-! ### Merged numbers -/

/-- A merge with numbers that are not all integers goes beyond the 32-bit format if one of the two
sides does. -/
lemma typeWidth_merge_of_floating {a b : Node} (ha : a.Canonical) (hb : b.Canonical)
    (hfamily : a.kind.family = .floating) (hfamily' : b.kind.family = .floating)
    (hmerge : (a.merge b).kind = .floating) (hkind : a.kind = .floating ∨ b.kind = .floating) :
    typeWidth (a.merge b).primitiveName =
      max (typeWidth a.primitiveName) (typeWidth b.primitiveName) := by
  obtain ⟨x, y, hspan⟩ := ha.exists_spans hfamily
  obtain ⟨z, w, hspan'⟩ := hb.exists_spans hfamily'
  have hxy := hspan.le ha
  have hzw := hspan'.le hb
  have hwidth := typeWidth_le_five_iff ha hspan
  have hwidth' := typeWidth_le_five_iff hb hspan'
  have hboth := typeWidth_le_five_iff (ha.merge hb) (hspan.merge hspan')
  have hsingle : |min x z| ≤ singlePlace ∧ |max y w| ≤ singlePlace ↔
      (|x| ≤ singlePlace ∧ |y| ≤ singlePlace) ∧ |z| ≤ singlePlace ∧ |w| ≤ singlePlace := by
    simp only [abs_le]
    omega
  rw [hsingle, ← hwidth, ← hwidth'] at hboth
  have hle := typeWidth_le_six (primitiveName_mem hfamily)
  have hle' := typeWidth_le_six (primitiveName_mem hfamily')
  have hwide := typeWidth_of_kind hmerge
  have hside : 5 ≤ typeWidth a.primitiveName ∨ 5 ≤ typeWidth b.primitiveName := by
    refine hkind.imp (fun h => ?_) fun h => ?_
    · have := typeWidth_of_kind h
      omega
    · have := typeWidth_of_kind h
      omega
  omega

/-- The type of merged numbers is the wider one of their types. -/
theorem typeWidth_merge {a b : Node} (ha : a.Canonical) (hb : b.Canonical)
    (hfamily : a.kind.family = .floating) (hfamily' : b.kind.family = .floating) :
    typeWidth (a.merge b).primitiveName =
      max (typeWidth a.primitiveName) (typeWidth b.primitiveName) := by
  have hab : Alike a b := alike_of_family_eq (hfamily.trans hfamily'.symm)
  cases hab with
  | integers =>
    rw [merge_integers]
    exact typeWidth_integers ha hb
  | floatings =>
    refine typeWidth_merge_of_floating ha hb hfamily hfamily' ?_ (Or.inl rfl)
    rw [merge_floatings]
    rfl
  | floatingInteger =>
    refine typeWidth_merge_of_floating ha hb hfamily hfamily' ?_ (Or.inl rfl)
    rw [merge_floating_integer]
    rfl
  | integerFloating =>
    refine typeWidth_merge_of_floating ha hb hfamily hfamily' ?_ (Or.inr rfl)
    rw [merge_integer_floating]
    rfl
  | _ => simp [kind, Kind.family] at hfamily

/-- Integers do not change the type of numbers that are not all integers. -/
lemma typeText_floating_merge_integer {min max : Double} {x y : ℤ}
    (h : Canonical (.floating min max)) (h' : Canonical (.integer x y)) :
    ((floating min max).merge (integer x y)).typeText = (floating min max).typeText := by
  have hfamily : (integer x y).kind.family = .floating := rfl
  have hmerge := typeWidth_merge h h' rfl hfamily
  have hinteger : typeWidth (integerTypeName x y) ≤ 4 := by
    unfold integerTypeName
    split_ifs <;> decide
  have hfloating := typeWidth_of_kind (show (floating min max).kind = .floating from rfl)
  rw [merge_floating_integer] at hmerge ⊢
  refine eq_of_typeWidth_eq _ (floatingTypeName_mem _ _) _ (floatingTypeName_mem _ _) ?_
  refine hmerge.trans (max_eq_left ?_)
  show typeWidth (integerTypeName x y) ≤ _
  omega

/-! ### Numbers at a path -/

/-- The type that is printed for the numbers at a path, that of an absent node if there are
none. -/
def numberText (path : List Step) (node : Node) : String :=
  (pick .floating (node.descend path).alternatives).typeText

/-- The width of this type. -/
def numberWidth (path : List Step) (node : Node) : ℕ := typeWidth (node.numberText path)

/-- The alternatives for numbers of two nodes are merged into one of the wider type. -/
lemma typeWidth_merge_picks {a b : Node} (ha : a.IsSchema) (hb : b.IsSchema) :
    typeWidth ((pick .floating a.alternatives).merge (pick .floating b.alternatives)).typeText =
      max (typeWidth (pick .floating a.alternatives).typeText)
        (typeWidth (pick .floating b.alternatives).typeText) := by
  have hpick := isSchema_pick ha .floating
  have hpick' := isSchema_pick hb .floating
  rcases pick_eq_void_or_family_eq .floating a.alternatives with hvoid | hfamily
  · rw [hvoid, merge_void_left]
    exact (max_eq_right (Nat.zero_le _)).symm
  rcases pick_eq_void_or_family_eq .floating b.alternatives with hvoid | hfamily'
  · rw [hvoid, merge_void_right]
    exact (max_eq_left (Nat.zero_le _)).symm
  have hcanonical := hpick.resolve_left fun hvoid => by
    rw [hvoid] at hfamily
    cases hfamily
  have hcanonical' := hpick'.resolve_left fun hvoid => by
    rw [hvoid] at hfamily'
    cases hfamily'
  have hmerge := (keepsFamily_merge _ _ (hfamily.trans hfamily'.symm)).trans hfamily
  rw [(isPrintedByName_of_family hmerge).typeText, (isPrintedByName_of_family hfamily).typeText,
    (isPrintedByName_of_family hfamily').typeText]
  exact typeWidth_merge hcanonical hcanonical' hfamily hfamily'

/-- The numbers at a path of a merge have the wider one of the types there. -/
theorem numberWidth_merge {a b : Node} (ha : a.IsSchema) (hb : b.IsSchema) (path : List Step) :
    (a.merge b).numberWidth path = max (a.numberWidth path) (b.numberWidth path) := by
  have hdescend := isSchema_descend ha path
  have hdescend' := isSchema_descend hb path
  -- the order of the two sides is open twice, on the way down and among the alternatives
  have key : ∀ {x y : Node}, x.IsSchema → y.IsSchema →
      typeWidth (pick .floating (x.merge y).alternatives).typeText =
        max (typeWidth (pick .floating x.alternatives).typeText)
          (typeWidth (pick .floating y.alternatives).typeText) := by
    intro x y hx hy
    rcases pick_merge hx hy .floating with h | h
    · rw [h, typeWidth_merge_picks hx hy]
    · rw [h, typeWidth_merge_picks hy hx, max_comm]
  unfold numberWidth numberText
  rcases descend_merge ha hb path with h | h
  · rw [h, key hdescend hdescend']
  · rw [h, key hdescend' hdescend, max_comm]

/-- The numbers of many nodes have the widest one of their types. -/
lemma numberWidth_foldl_merge_le_iff (path : List Step) {bound : ℕ} {start : Node}
    (hstart : start.IsSchema) {nodes : List Node} (hnodes : ∀ node ∈ nodes, node.IsSchema) :
    (nodes.foldl merge start).numberWidth path ≤ bound ↔
      start.numberWidth path ≤ bound ∧ ∀ node ∈ nodes, node.numberWidth path ≤ bound := by
  induction nodes generalizing start with
  | nil => simp
  | cons node nodes ih =>
    obtain ⟨hnode, hnodes⟩ := List.forall_mem_cons.mp hnodes
    rw [List.foldl_cons, ih (hstart.merge hnode) hnodes, numberWidth_merge hstart hnode, max_le_iff,
      List.forall_mem_cons, and_assoc]

end Node

/-- More records never make the type of numbers narrower. -/
theorem numberWidth_le_of_subset {records others : List Value}
    (hclean : ∀ record ∈ others, record.Clean) (hsubset : records ⊆ others) {node wider : Node}
    (h : Node.infer detection records = .ok node) (h' : Node.infer detection others = .ok wider)
    (path : List Step) : node.numberWidth path ≤ wider.numberWidth path := by
  obtain ⟨nodes, hnodes, rfl⟩ := infer_eq_ok_iff.mp h
  obtain ⟨more, hmore, rfl⟩ := infer_eq_ok_iff.mp h'
  have hschema : ∀ {records : List Value} {nodes : List Node}, records ⊆ others →
      List.Forall₂ (fun record node => classify detection recordPath record = .ok node)
        records nodes → ∀ node ∈ nodes, node.IsSchema := by
    intro records nodes hsubset hnodes node hnode
    obtain ⟨record, hrecord, hok⟩ := exists_of_mem_right hnodes hnode
    exact Or.inr (recorded_of_classify (hclean record (hsubset hrecord)) hok).canonical
  have hbound := (Node.numberWidth_foldl_merge_le_iff path (Or.inl rfl)
    (hschema (List.Subset.refl others) hmore)).mp le_rfl
  refine (Node.numberWidth_foldl_merge_le_iff path (Or.inl rfl) (hschema hsubset hnodes)).mpr
    ⟨hbound.1, fun part hpart => ?_⟩
  -- the record of the part is among the others, and has the same node there
  obtain ⟨record, hrecord, hok⟩ := exists_of_mem_right hnodes hpart
  obtain ⟨other, hother, hok'⟩ := exists_of_mem_left hmore (hsubset hrecord)
  obtain rfl : part = other := Except.ok.inj (hok.symm.trans hok')
  exact hbound.2 part hother

end RecordSchema
