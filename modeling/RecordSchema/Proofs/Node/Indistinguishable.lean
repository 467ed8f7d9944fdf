import RecordSchema.Node.Equality
import RecordSchema.Render.Listing
import RecordSchema.Render.Table
import RecordSchema.Proofs.Node.Algebra

/-!
# Indistinguishable schemas

Schemas that differ at most in the signs of zero bounds cannot be told apart: they are equal in
both directions, and every text made of them is the same.  For no text shows the sign of a bound,
and the equality of nodes, one-sided as it is on unions, finds the alternative of the same place.

The main statements are the laws of merging for all schemas, canonical nodes and absent ones:
`merge_assoc_indistinguishable` and `merge_comm_indistinguishable`.
-/

namespace RecordSchema

namespace Node

/-- Two nodes are the same node for node up to the signs of zero bounds, they are equal in both
directions, and they have the same texts. -/
structure Indistinguishable (a b : Node) : Prop where
  same : a.dropZeroSigns = b.dropZeroSigns
  equals : a.equals b = true
  equals_reversed : b.equals a = true
  typeText : a.typeText = b.typeText
  indented : ∀ indent margin, a.indented indent margin = b.indented indent margin
  tableText : ∀ indent tableName, a.tableText indent tableName = b.tableText indent tableName
  listing : ∀ root, a.listing root = b.listing root

/-- A node without parts is printed by its name. -/
structure IsPrintedByName (node : Node) : Prop where
  typeText : node.typeText = node.primitiveName
  indented : ∀ indent margin, node.indented indent margin = node.primitiveName
  leaves : ∀ path, node.leaves path = [⟨path, node⟩]

/-! ### Texts without the signs of zeros -/

lemma fieldTexts_eq_map (fields : List (String × Node)) :
    fieldTexts fields = fields.map fun field => field.1 ++ ":" ++ field.2.typeText := by
  induction fields with
  | nil => rfl
  | cons field fields ih => rw [fieldTexts, ih, List.map_cons]

lemma typeTexts_eq_map (nodes : List Node) : typeTexts nodes = nodes.map typeText := by
  induction nodes with
  | nil => rfl
  | cons node nodes ih => rw [typeTexts, ih, List.map_cons]

lemma indentedFields_eq_map (indent margin : ℤ) (fields : List (String × Node)) :
    indentedFields indent margin fields = fields.map fun field =>
      blanks margin ++ field.1 ++ ": " ++ field.2.indented indent (margin + indent) := by
  induction fields with
  | nil => rfl
  | cons field fields ih => rw [indentedFields, ih, List.map_cons]

lemma indentedAll_eq_map (indent margin : ℤ) (nodes : List Node) :
    indentedAll indent margin nodes = nodes.map (indented indent margin) := by
  induction nodes with
  | nil => rfl
  | cons node nodes ih => rw [indentedAll, ih, List.map_cons]

lemma leavesOfFields_eq_flatMap (path : String) (fields : List (String × Node)) :
    leavesOfFields path fields =
      fields.flatMap fun field => field.2.leaves (path ++ "." ++ field.1) := by
  induction fields with
  | nil => rfl
  | cons field fields ih => rw [leavesOfFields, ih, List.flatMap_cons]

@[simp] lemma primitiveName_dropZeroSigns (node : Node) :
    node.dropZeroSigns.primitiveName = node.primitiveName := by
  cases node <;> simp [dropZeroSigns, primitiveName, floatingTypeName]

lemma typeText_dropZeroSigns (node : Node) : node.dropZeroSigns.typeText = node.typeText := by
  induction node using induction with
  | struct fields shapes ih =>
    simp only [dropZeroSigns, typeText, dropZeroSignsOfFields_eq_map, fieldTexts_eq_map,
      List.map_map]
    rw [List.map_congr_left]
    rintro field hfield
    simp only [Function.comp_apply, ih field hfield]
  | list element ih => simp only [dropZeroSigns, typeText, ih]
  | union children ih =>
    simp only [dropZeroSigns, typeText, dropZeroSignsOfAll_eq_map, typeTexts_eq_map, List.map_map]
    rw [List.map_congr_left]
    exact ih
  | floating min max => exact primitiveName_dropZeroSigns (.floating min max)
  | _ => rfl

lemma indented_dropZeroSigns (indent : ℤ) (node : Node) (margin : ℤ) :
    node.dropZeroSigns.indented indent margin = node.indented indent margin := by
  induction node using induction generalizing margin with
  | struct fields shapes ih =>
    simp only [dropZeroSigns, indented, dropZeroSignsOfFields_eq_map, indentedFields_eq_map,
      List.map_map]
    rw [List.map_congr_left]
    rintro field hfield
    simp only [Function.comp_apply, ih field hfield]
  | list element ih => simp only [dropZeroSigns, indented, ih]
  | union children ih =>
    simp only [dropZeroSigns, indented, dropZeroSignsOfAll_eq_map, indentedAll_eq_map,
      List.map_map]
    rw [List.map_congr_left]
    exact fun child hchild => ih child hchild _
  | floating min max => exact primitiveName_dropZeroSigns (.floating min max)
  | _ => rfl

lemma tableText_dropZeroSigns (indent : ℤ) (tableName : String) (node : Node) :
    node.dropZeroSigns.tableText indent tableName = node.tableText indent tableName := by
  cases node with
  | struct fields shapes =>
    simp only [dropZeroSigns, tableText, dropZeroSignsOfFields_eq_map, List.isEmpty_map,
      List.map_map]
    rw [List.map_congr_left (g := columnText indent)]
    rintro field -
    simp only [Function.comp_apply, columnText, indented_dropZeroSigns]
  | list element =>
    have htext := typeText_dropZeroSigns (.list element)
    simp only [dropZeroSigns] at htext
    simp only [dropZeroSigns, tableText, htext]
  | union children =>
    have htext := typeText_dropZeroSigns (.union children)
    simp only [dropZeroSigns] at htext
    simp only [dropZeroSigns, tableText, htext]
  | floating min max =>
    have htext := typeText_dropZeroSigns (.floating min max)
    simp only [dropZeroSigns] at htext
    simp only [dropZeroSigns, tableText, htext]
  | _ => rfl

lemma leaves_dropZeroSigns (node : Node) (path : String) :
    (node.dropZeroSigns.leaves path).map Leaf.text = (node.leaves path).map Leaf.text := by
  induction node using induction generalizing path with
  | struct fields shapes ih =>
    cases fields with
    | nil => rfl
    | cons field fields =>
      simp only [dropZeroSigns, dropZeroSignsOfFields_eq_map, List.map_cons, leaves]
      rw [← List.map_cons (f := fun field : String × Node => (field.1, field.2.dropZeroSigns)),
        leavesOfFields_eq_flatMap, leavesOfFields_eq_flatMap, List.flatMap_map, List.map_flatMap,
        List.map_flatMap]
      exact List.flatMap_congr fun other hother => ih other hother _
  | list element ih => simp only [dropZeroSigns, leaves, ih]
  | union children =>
    have htext := typeText_dropZeroSigns (.union children)
    simp only [dropZeroSigns] at htext
    simp only [dropZeroSigns, leaves, List.map_cons, List.map_nil, Leaf.text, htext]
  | floating min max =>
    have htext := typeText_dropZeroSigns (.floating min max)
    simp only [dropZeroSigns] at htext
    simp only [dropZeroSigns, leaves, List.map_cons, List.map_nil, Leaf.text, htext]
  | _ => rfl

lemma listing_dropZeroSigns (root : String) (node : Node) :
    node.dropZeroSigns.listing root = node.listing root := by
  rw [listing, leaves_dropZeroSigns, listing]

/-! ### Equality without the signs of zeros -/

lemma fieldsAgree_iff (swapped : Bool) (fields others : List (String × Node)) :
    fieldsAgree swapped fields others = true ↔ ∀ field ∈ fields,
      ∃ other, others.lookup field.1 = some other ∧ agrees swapped field.2 other = true := by
  induction fields with
  | nil => simp [fieldsAgree]
  | cons field fields ih =>
    rw [fieldsAgree, Bool.and_eq_true, ih, List.forall_mem_cons]
    refine and_congr_left' ?_
    cases others.lookup field.1 <;> simp

lemma allFound_iff (others nodes : List Node) :
    allFound others nodes = true ↔
      ∀ node ∈ nodes, ∃ other ∈ others, agrees true node other = true := by
  induction nodes with
  | nil => simp [allFound]
  | cons node nodes ih =>
    rw [allFound, Bool.and_eq_true, ih, List.forall_mem_cons, List.any_eq_true]

lemma isFound_iff (other : Node) (nodes : List Node) :
    isFound other nodes = true ↔ ∃ node ∈ nodes, agrees false node other = true := by
  induction nodes with
  | nil => simp [isFound]
  | cons node nodes ih => rw [isFound, Bool.or_eq_true, ih, List.exists_mem_cons_iff]

lemma lookup_of_mem {fields : List (String × Node)} (h : (names fields).Nodup)
    {field : String × Node} (hfield : field ∈ fields) : fields.lookup field.1 = some field.2 := by
  induction fields with
  | nil => cases hfield
  | cons head fields ih =>
    obtain ⟨hhead, htail⟩ := List.nodup_cons.mp h
    rcases List.mem_cons.mp hfield with rfl | hfield
    · rw [List.lookup_cons_self]
    · have hne : field.1 ≠ head.1 := fun heq => hhead (heq ▸ List.mem_map_of_mem hfield)
      rw [List.lookup_cons, beq_false_of_ne hne, ih htail hfield]

/-- Lists with the same image hold entries with the same image. -/
lemma exists_mem_of_map_eq {α β : Type} {f : α → β} {xs ys : List α} (h : xs.map f = ys.map f)
    {x : α} (hx : x ∈ xs) : ∃ y ∈ ys, f x = f y := by
  have hmem : f x ∈ ys.map f := h ▸ List.mem_map_of_mem hx
  obtain ⟨y, hy, heq⟩ := List.mem_map.mp hmem
  exact ⟨y, hy, heq.symm⟩

/-- A canonical node agrees with every canonical node that differs in signs of zeros only. -/
lemma agrees_of_dropZeroSigns_eq {a b : Node} (ha : a.Canonical) (hb : b.Canonical)
    (h : a.dropZeroSigns = b.dropZeroSigns) (swapped : Bool) : agrees swapped a b = true := by
  induction ha generalizing b swapped with
  | struct _ _ _ ih =>
    cases b <;> simp only [dropZeroSigns, dropZeroSignsOfFields_eq_map, struct.injEq,
      reduceCtorEq] at h
    rename_i fields _ _ others _
    have hnames := hb.nodup_names
    cases hb with
    | struct _ _ canonical' =>
      rw [agrees, Bool.and_eq_true, fieldsAgree_iff]
      refine ⟨by simpa using congrArg List.length h.1, fun field hfield => ?_⟩
      obtain ⟨other, hother, heq⟩ := exists_mem_of_map_eq h.1 hfield
      obtain ⟨hname, hnode⟩ := Prod.mk.injEq .. ▸ heq
      exact ⟨other.2, by rw [hname, lookup_of_mem hnames hother],
        ih field hfield (canonical' other hother) hnode swapped⟩
  | list _ ih =>
    cases b <;> simp only [dropZeroSigns, list.injEq, reduceCtorEq] at h
    cases hb with
    | list canonical' =>
      rw [agrees]
      exact ih canonical' h swapped
  | union _ _ _ ih =>
    cases b <;> simp only [dropZeroSigns, dropZeroSignsOfAll_eq_map, union.injEq,
      reduceCtorEq] at h
    rename_i children _ _ _ others
    cases hb with
    | union _ _ canonical' =>
      rw [agrees, Bool.and_eq_true]
      refine ⟨by simpa using congrArg List.length h, ?_⟩
      -- the side whose alternatives are looked up changes with the direction
      cases swapped with
      | false =>
        simp only [Bool.false_eq_true, if_false]
        rw [allFound_iff]
        intro child hchild
        obtain ⟨other, hother, heq⟩ := exists_mem_of_map_eq h hchild
        exact ⟨other, hother, ih child hchild (canonical' other hother) heq true⟩
      | true =>
        simp only [if_true]
        rw [List.all_eq_true]
        intro other hother
        obtain ⟨child, hchild, heq⟩ := exists_mem_of_map_eq h.symm hother
        exact (isFound_iff other children).mpr
          ⟨child, hchild, ih child hchild (canonical' other hother) heq.symm false⟩
  | floating ordered =>
    obtain ⟨x, y, hx, hy, -⟩ := ordered
    cases b <;> simp only [dropZeroSigns, floating.injEq, reduceCtorEq] at h
    rw [agrees, Double.eqv_of_dropZeroSign_eq hx h.1, Double.eqv_of_dropZeroSign_eq hy h.2,
      Bool.and_self]
  | integer =>
    cases b <;> simp only [dropZeroSigns, integer.injEq, reduceCtorEq] at h
    simp [agrees, h]
  | _ =>
    cases b <;> simp only [dropZeroSigns, reduceCtorEq] at h
    rw [agrees]

/-- Schemas that differ in the signs of zeros only cannot be told apart. -/
theorem indistinguishable_of_dropZeroSigns_eq {a b : Node} (ha : a.IsSchema) (hb : b.IsSchema)
    (h : a.dropZeroSigns = b.dropZeroSigns) : Indistinguishable a b := by
  -- equality is needed in both directions, and the argument does not see the difference
  have agree : ∀ {a b : Node}, a.IsSchema → b.IsSchema → a.dropZeroSigns = b.dropZeroSigns →
      a.equals b = true := by
    intro a b ha hb h
    rcases ha with rfl | ha
    · rw [dropZeroSigns_eq_void.mp h.symm, equals, agrees]
    rcases hb with rfl | hb
    · exact absurd (dropZeroSigns_eq_void.mp h) ha.ne_void
    · exact agrees_of_dropZeroSigns_eq ha hb h false
  refine ⟨h, agree ha hb h, agree hb ha h.symm, ?_, ?_, ?_, ?_⟩
  · rw [← typeText_dropZeroSigns a, h, typeText_dropZeroSigns]
  · intro indent margin
    rw [← indented_dropZeroSigns indent a, h, indented_dropZeroSigns]
  · intro indent tableName
    rw [← tableText_dropZeroSigns indent tableName a, h, tableText_dropZeroSigns]
  · intro root
    rw [← listing_dropZeroSigns root a, h, listing_dropZeroSigns]

/-! ### The laws of merging -/

/-- Merging schemas is associative: the two ways to merge three schemas cannot be told apart. -/
theorem merge_assoc_indistinguishable {a b c : Node} (ha : a.IsSchema) (hb : b.IsSchema)
    (hc : c.IsSchema) : Indistinguishable ((a.merge b).merge c) (a.merge (b.merge c)) := by
  refine indistinguishable_of_dropZeroSigns_eq ((ha.merge hb).merge hc) (ha.merge (hb.merge hc)) ?_
  simp only [dropZeroSigns_merge]
  exact (Plain.of_isSchema ha).merge_assoc (Plain.of_isSchema hb) (Plain.of_isSchema hc)

/-- An integer that no double holds, a union with a negative zero and a struct: the integer is
rounded before or after the bounds are widened. -/
theorem merge_assoc_integer_union_struct : Indistinguishable
    (((integer 9007199254740993 9007199254740993).merge
      (union [floating (.number true 0) (.number true 0), binary])).merge
        (struct [("k", null), ("l", string)] (.ofList ["k,l"])))
    ((integer 9007199254740993 9007199254740993).merge
      ((union [floating (.number true 0) (.number true 0), binary]).merge
        (struct [("k", null), ("l", string)] (.ofList ["k,l"])))) :=
  merge_assoc_indistinguishable (by decide) (by decide) (by decide)

/-- Merging schemas is commutative: the two orders of two schemas cannot be told apart. -/
theorem merge_comm_indistinguishable {a b : Node} (ha : a.IsSchema) (hb : b.IsSchema) :
    Indistinguishable (a.merge b) (b.merge a) := by
  refine indistinguishable_of_dropZeroSigns_eq (ha.merge hb) (hb.merge ha) ?_
  simp only [dropZeroSigns_merge]
  exact (Plain.of_isSchema ha).merge_comm (Plain.of_isSchema hb)

/-- Two unions whose alternatives meet: zeros of different signs, and hexadecimal strings with
others. -/
theorem merge_comm_unions : Indistinguishable
    ((union [floating (.number true 0) (.number true 0), binary]).merge
      (union [boolean, floating (.number false 0) (.number false 0), string]))
    ((union [boolean, floating (.number false 0) (.number false 0), string]).merge
      (union [floating (.number true 0) (.number true 0), binary])) :=
  merge_comm_indistinguishable (by decide) (by decide)

end Node

end RecordSchema
