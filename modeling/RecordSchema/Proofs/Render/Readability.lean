import RecordSchema.Proofs.Render.Skeleton

/-!
# Unique readability

The type on one line determines the skeleton of its node (`typeText_unambiguous`), as long as no
field has one of the characters that brackets, lists and names are made up with in its name.

A type begins with a word, which tells the kind: the name of a leaf, or the word in front of a
bracket.  The word ends where the first of these characters stands.  In brackets stand the parts,
one after the other.  Where a part ends is found by reading it, so the induction is over the node
and for every text that may follow it.
-/

namespace RecordSchema

/-! ### Parts in brackets -/

/-- The characters that a type is put together with. -/
def IsPunctuation (c : Char) : Prop := c = '<' ∨ c = '>' ∨ c = ',' ∨ c = ':'

instance : DecidablePred IsPunctuation := fun c => inferInstanceAs (Decidable (c = '<' ∨ _))

/-- A word with none of these characters. -/
def IsPlainWord (word : String) : Prop := ∀ c ∈ word.toList, ¬ IsPunctuation c

-- only the characters of the word are looked at, although there are finitely many in all
instance : DecidablePred IsPlainWord := fun word =>
  List.decidableBAll (fun c => ¬ IsPunctuation c) word.toList

/-- A text that ends, or goes on with one of these characters. -/
abbrev Pauses : List Char → Prop := Node.Stops IsPunctuation

lemma pauses_cons {c : Char} (h : IsPunctuation c) (rest : List Char) : Pauses (c :: rest) := by
  simpa [Node.Stops] using h

section Parts

variable {α β : Type} {print : α → List Char} {view : α → β} {xs ys : List α}
  {rest rest' : List Char}

/-- What is printed determines what it shows and where it ends. -/
def Determines (print : α → List Char) (view : α → β) (x y : α) : Prop :=
  ∀ ⦃rest rest'⦄, Pauses rest → Pauses rest' → print x ++ rest = print y ++ rest' →
    view x = view y ∧ rest = rest'

/-- The rest of a bracket: further parts, the bracket that closes, and what follows. -/
def closing (print : α → List Char) (xs : List α) (rest : List Char) : List Char :=
  (xs.flatMap fun x => ',' :: print x) ++ '>' :: rest

lemma closing_nil : closing print [] rest = '>' :: rest := rfl

lemma closing_cons (x : α) :
    closing print (x :: xs) rest = ',' :: (print x ++ closing print xs rest) := by
  simp [closing]

lemma pauses_closing (xs : List α) (rest : List Char) : Pauses (closing print xs rest) := by
  cases xs with
  | nil => exact pauses_cons (by simp [IsPunctuation]) _
  | cons x xs =>
    rw [closing_cons]
    exact pauses_cons (by simp [IsPunctuation]) _

lemma closing_unique (hparts : ∀ x ∈ xs, ∀ y ∈ ys, Determines print view x y)
    (h : closing print xs rest = closing print ys rest') :
    xs.map view = ys.map view ∧ rest = rest' := by
  induction xs generalizing ys with
  | nil =>
    cases ys with
    | nil => simpa [closing_nil] using h
    | cons y ys => simp [closing_nil, closing_cons] at h
  | cons x xs ih =>
    cases ys with
    | nil => simp [closing_nil, closing_cons] at h
    | cons y ys =>
      simp only [closing_cons, List.cons.injEq, true_and] at h
      obtain ⟨hview, hclosing⟩ := hparts x (by simp) y (by simp) (pauses_closing xs rest)
        (pauses_closing ys rest') h
      obtain ⟨hviews, hrest⟩ := ih (fun x hx y hy =>
        hparts x (List.mem_cons_of_mem _ hx) y (List.mem_cons_of_mem _ hy)) hclosing
      exact ⟨by rw [List.map_cons, List.map_cons, hview, hviews], hrest⟩

/-- All parts and the bracket that closes. -/
def bracket (print : α → List Char) : List α → List Char → List Char
  | [], rest => '>' :: rest
  | x :: xs, rest => print x ++ closing print xs rest

/-- Parts in brackets are determined one by one, if none of them is printed as nothing. -/
lemma bracket_unique (hparts : ∀ x ∈ xs, ∀ y ∈ ys, Determines print view x y)
    (hxs : ∀ x ∈ xs, ∀ t t', print x ++ t ≠ '>' :: t')
    (hys : ∀ y ∈ ys, ∀ t t', print y ++ t ≠ '>' :: t')
    (h : bracket print xs rest = bracket print ys rest') :
    xs.map view = ys.map view ∧ rest = rest' := by
  cases xs with
  | nil =>
    cases ys with
    | nil => simpa [bracket] using h
    | cons y ys => exact absurd h.symm (hys y (by simp) _ _)
  | cons x xs =>
    cases ys with
    | nil => exact absurd h (hxs x (by simp) _ _)
    | cons y ys =>
      obtain ⟨hview, hclosing⟩ := hparts x (by simp) y (by simp) (pauses_closing xs rest)
        (pauses_closing ys rest') h
      obtain ⟨hviews, hrest⟩ := closing_unique (fun x hx y hy =>
        hparts x (List.mem_cons_of_mem _ hx) y (List.mem_cons_of_mem _ hy)) hclosing
      exact ⟨by rw [List.map_cons, List.map_cons, hview, hviews], hrest⟩

/-- Texts joined by commas and closed are the parts of a bracket. -/
lemma toList_intercalate_append (texts : List String) (rest : List Char) :
    (",".intercalate texts).toList ++ '>' :: rest = bracket String.toList texts rest := by
  cases texts with
  | nil => rfl
  | cons text texts =>
    rw [Node.intercalate_cons, String.toList_append, Node.toList_trailing, List.append_assoc]
    rfl

lemma bracket_map {γ : Type} (f : γ → α) (zs : List γ) (rest : List Char) :
    bracket print (zs.map f) rest = bracket (print ∘ f) zs rest := by
  cases zs with
  | nil => rfl
  | cons z zs => simp [bracket, closing, List.flatMap_map]

end Parts

namespace Node

/-! ### Words in front of brackets -/

/-- The word that a type begins with. -/
def heading : Node → String
  | .struct .. => "struct"
  | .list _ => "array"
  | .union _ => "uniontype"
  | node => node.primitiveName

/-- What follows this word: the parts of the node in brackets. -/
def body : Node → String
  | .struct fields _ => "<" ++ ",".intercalate (fieldTexts fields) ++ ">"
  | .list element => "<" ++ element.typeText ++ ">"
  | .union children => "<" ++ ",".intercalate (typeTexts children) ++ ">"
  | _ => ""

/-- The words and the kinds that they stand for. -/
def headings : List (Kind × String) :=
  [(.void, "void"), (.null, "null"), (.boolean, "boolean"), (.integer, "tinyint"),
    (.integer, "smallint"), (.integer, "int"), (.integer, "bigint"), (.floating, "float"),
    (.floating, "double"), (.string, "string"), (.binary, "binary"), (.timestamp, "timestamp"),
    (.struct, "struct"), (.list, "array"), (.union, "uniontype")]

lemma typeText_eq (node : Node) : node.typeText = node.heading ++ node.body := by
  have hstruct : "struct" ++ "<" = "struct<" := rfl
  have harray : "array" ++ "<" = "array<" := rfl
  have hunion : "uniontype" ++ "<" = "uniontype<" := rfl
  cases node with
  | struct | list | union =>
    simp only [typeText, heading, body, ← String.append_assoc, hstruct, harray, hunion]
  | _ => exact (String.append_empty).symm

lemma mem_headings (node : Node) : (node.kind, node.heading) ∈ headings := by
  cases node with
  | integer min max =>
    simp only [kind, heading, primitiveName, integerTypeName]
    split_ifs <;> simp [headings]
  | floating min max =>
    simp only [kind, heading, primitiveName, floatingTypeName]
    split_ifs <;> simp [headings]
  | _ => simp [kind, heading, primitiveName, headings]

/-- No two kinds share a word. -/
lemma kind_eq_of_heading_eq {a b : Node} (h : a.heading = b.heading) : a.kind = b.kind := by
  have hdistinct : ∀ x ∈ headings, ∀ y ∈ headings, x.2 = y.2 → x.1 = y.1 := by decide
  exact hdistinct _ (mem_headings a) _ (mem_headings b) h

lemma isPlainWord_heading (node : Node) : IsPlainWord node.heading := by
  have hwords : ∀ x ∈ headings, IsPlainWord x.2 := by decide
  exact hwords _ (mem_headings node)

lemma heading_ne_nil (node : Node) : node.heading.toList ≠ [] := by
  have hwords : ∀ x ∈ headings, x.2.toList ≠ [] := by decide
  exact hwords _ (mem_headings node)

lemma pauses_body (node : Node) {rest : List Char} (hrest : Pauses rest) :
    Pauses (node.body.toList ++ rest) := by
  have hopen : "<".toList = ['<'] := rfl
  cases node with
  | struct | list | union =>
    simp only [body, String.toList_append, hopen, List.cons_append, List.nil_append]
    exact pauses_cons (by simp [IsPunctuation]) _
  | _ => exact hrest

/-- A leaf is its word. -/
lemma IsLeaf.heading_eq {node : Node} (h : node.IsLeaf) :
    node.heading = node.primitiveName ∧ node.body = "" := by
  obtain ⟨hstruct, hlist, hunion⟩ := h
  cases node with
  | struct => exact absurd rfl hstruct
  | list => exact absurd rfl hlist
  | union => exact absurd rfl hunion
  | _ => exact ⟨rfl, rfl⟩

/-- A type in front of other text determines its word, and what follows the word. -/
lemma heading_unique {a b : Node} {rest rest' : List Char} (hrest : Pauses rest)
    (hrest' : Pauses rest') (h : a.typeText.toList ++ rest = b.typeText.toList ++ rest') :
    a.heading = b.heading ∧ a.body.toList ++ rest = b.body.toList ++ rest' := by
  rw [typeText_eq, typeText_eq, String.toList_append, String.toList_append, List.append_assoc,
    List.append_assoc] at h
  obtain ⟨hheading, hbody⟩ := word_unique (isPlainWord_heading a)
    (isPlainWord_heading b) (pauses_body a hrest) (pauses_body b hrest') h
  exact ⟨String.toList_inj.mp hheading, hbody⟩

/-- No type is empty, so none is read where a bracket closes. -/
lemma typeText_append_ne (node : Node) (rest rest' : List Char) :
    node.typeText.toList ++ rest ≠ '>' :: rest' := by
  intro h
  rw [typeText_eq, String.toList_append, List.append_assoc] at h
  cases hheading : node.heading.toList with
  | nil => exact heading_ne_nil node hheading
  | cons c word =>
    rw [hheading, List.cons_append, List.cons.injEq] at h
    refine isPlainWord_heading node c (by simp [hheading]) ?_
    simp [h.1, IsPunctuation]

/-! ### Names of fields -/

mutual

/-- The names of all fields of a node, at every depth. -/
def fieldNames : Node → List String
  | .struct fields _ => fieldNamesOfFields fields
  | .list element => element.fieldNames
  | .union children => fieldNamesOfAll children
  | _ => []

/-- The names of fields and those within their nodes. -/
def fieldNamesOfFields : List (String × Node) → List String
  | [] => []
  | (name, node) :: fields => name :: (node.fieldNames ++ fieldNamesOfFields fields)

/-- The names within the nodes of a list. -/
def fieldNamesOfAll : List Node → List String
  | [] => []
  | node :: nodes => node.fieldNames ++ fieldNamesOfAll nodes

end

@[simp] lemma fieldNamesOfFields_eq_flatMap (fields : List (String × Node)) :
    fieldNamesOfFields fields = fields.flatMap fun field => field.1 :: field.2.fieldNames := by
  induction fields with
  | nil => rfl
  | cons field fields ih => rw [fieldNamesOfFields, ih, List.flatMap_cons, List.cons_append]

@[simp] lemma fieldNamesOfAll_eq_flatMap (nodes : List Node) :
    fieldNamesOfAll nodes = nodes.flatMap fieldNames := by
  induction nodes with
  | nil => rfl
  | cons node nodes ih => rw [fieldNamesOfAll, ih, List.flatMap_cons]

/-- No field has a name with one of the characters that a type is put together with. -/
def HasPlainNames (node : Node) : Prop := ∀ name ∈ node.fieldNames, IsPlainWord name

instance (node : Node) : Decidable node.HasPlainNames :=
  inferInstanceAs (Decidable (∀ name ∈ node.fieldNames, IsPlainWord name))

lemma HasPlainNames.of_mem_fields {fields : List (String × Node)} {shapes : ShapeSet}
    (h : HasPlainNames (.struct fields shapes)) {field : String × Node} (hfield : field ∈ fields) :
    IsPlainWord field.1 ∧ field.2.HasPlainNames := by
  simp only [HasPlainNames, fieldNames, fieldNamesOfFields_eq_flatMap, List.mem_flatMap,
    List.mem_cons] at h
  exact ⟨h _ ⟨field, hfield, Or.inl rfl⟩, fun name hname => h name ⟨field, hfield, Or.inr hname⟩⟩

lemma HasPlainNames.element {element : Node} (h : HasPlainNames (.list element)) :
    element.HasPlainNames := by
  simpa only [HasPlainNames, fieldNames] using h

lemma HasPlainNames.of_mem {children : List Node} (h : HasPlainNames (.union children))
    {child : Node} (hchild : child ∈ children) : child.HasPlainNames := by
  simp only [HasPlainNames, fieldNames, fieldNamesOfAll_eq_flatMap, List.mem_flatMap] at h
  exact fun name hname => h name ⟨child, hchild, hname⟩

/-! ### Unique readability -/

/-- A field as it is printed. -/
def fieldText (field : String × Node) : List Char :=
  field.1.toList ++ ':' :: field.2.typeText.toList

lemma body_struct (fields : List (String × Node)) (shapes : ShapeSet) (rest : List Char) :
    (body (.struct fields shapes)).toList ++ rest = '<' :: bracket fieldText fields rest := by
  have hprint : String.toList ∘ (fun field : String × Node =>
      field.1 ++ ":" ++ field.2.typeText) = fieldText := by
    ext1 field
    simp [fieldText]
  rw [← hprint, ← bracket_map, ← fieldTexts_eq_map, ← toList_intercalate_append]
  simp [body]

lemma body_list (element : Node) (rest : List Char) :
    (body (.list element)).toList ++ rest = '<' :: (element.typeText.toList ++ '>' :: rest) := by
  simp [body]

lemma body_union (children : List Node) (rest : List Char) :
    (body (.union children)).toList ++ rest =
      '<' :: bracket (fun child => child.typeText.toList) children rest := by
  have hprint : String.toList ∘ typeText = fun child => child.typeText.toList := rfl
  rw [← hprint, ← bracket_map, ← typeTexts_eq_map, ← toList_intercalate_append]
  simp [body]

/-- A field is determined if its node is, since its name ends at the colon. -/
lemma determines_field {field other : String × Node}
    (hname : IsPlainWord field.1) (hname' : IsPlainWord other.1)
    (h : Determines (fun node => node.typeText.toList) skeleton field.2 other.2) :
    Determines fieldText (fun field => (field.1, field.2.skeleton)) field other := by
  intro rest rest' hrest hrest' htext
  simp only [fieldText, List.append_assoc, List.cons_append] at htext
  have hcolon : IsPunctuation ':' := by simp [IsPunctuation]
  obtain ⟨hnames, hnodes⟩ := word_unique hname hname' (pauses_cons hcolon _) (pauses_cons hcolon _)
    htext
  rw [List.cons.injEq] at hnodes
  obtain ⟨hskeleton, heq⟩ := h hrest hrest' hnodes.2
  exact ⟨Prod.ext (String.toList_inj.mp hnames) hskeleton, heq⟩

lemma fieldText_append_ne {field : String × Node} (hname : IsPlainWord field.1)
    (rest rest' : List Char) : fieldText field ++ rest ≠ '>' :: rest' := by
  intro h
  simp only [fieldText, List.append_assoc] at h
  cases hletters : field.1.toList with
  | nil => simp [hletters] at h
  | cons c word =>
    rw [hletters, List.cons_append, List.cons.injEq] at h
    refine hname c (by simp [hletters]) ?_
    simp [h.1, IsPunctuation]

/-- The name of a leaf shows the kind as well, so that the other node is a leaf of the same name. -/
lemma determines_of_isLeaf {a b : Node} (ha : a.IsLeaf) :
    Determines (fun node => node.typeText.toList) skeleton a b := by
  intro rest rest' hrest hrest' h
  obtain ⟨hheading, hbody⟩ := heading_unique hrest hrest' h
  have hkind := kind_eq_of_heading_eq hheading
  have hb : b.IsLeaf := by
    rw [IsLeaf, ← hkind]
    exact ha
  rw [ha.heading_eq.1, hb.heading_eq.1] at hheading
  rw [ha.heading_eq.2, hb.heading_eq.2] at hbody
  exact ⟨by rw [skeleton_of_isLeaf ha, skeleton_of_isLeaf hb, hkind, hheading], hbody⟩

/-- A type in front of other text determines the skeleton of its node, and where it ends. -/
theorem determines_typeText {a b : Node} (ha : a.HasPlainNames) (hb : b.HasPlainNames) :
    Determines (fun node => node.typeText.toList) skeleton a b := by
  have hclose : IsPunctuation '>' := by simp [IsPunctuation]
  induction a using induction generalizing b with
  | struct fields shapes ih =>
    intro rest rest' hrest hrest' h
    obtain ⟨hheading, hbody⟩ := heading_unique hrest hrest' h
    -- the same word, so the same kind, and then the parts are compared one by one
    obtain ⟨others, otherShapes, rfl⟩ := eq_struct_of_kind (kind_eq_of_heading_eq hheading).symm
    rw [body_struct, body_struct, List.cons.injEq] at hbody
    obtain ⟨hviews, heq⟩ := bracket_unique (fun field hfield other hother =>
        determines_field (ha.of_mem_fields hfield).1 (hb.of_mem_fields hother).1
          (ih field hfield (ha.of_mem_fields hfield).2 (hb.of_mem_fields hother).2))
      (fun field hfield => fieldText_append_ne (ha.of_mem_fields hfield).1)
      (fun other hother => fieldText_append_ne (hb.of_mem_fields hother).1) hbody.2
    exact ⟨by simp [skeleton, hviews], heq⟩
  | list element ih =>
    intro rest rest' hrest hrest' h
    obtain ⟨hheading, hbody⟩ := heading_unique hrest hrest' h
    obtain ⟨other, rfl⟩ := eq_list_of_kind (kind_eq_of_heading_eq hheading).symm
    rw [body_list, body_list, List.cons.injEq] at hbody
    obtain ⟨hskeleton, heq⟩ := ih ha.element hb.element (pauses_cons hclose rest)
      (pauses_cons hclose rest') hbody.2
    rw [List.cons.injEq] at heq
    exact ⟨by simp [skeleton, hskeleton], heq.2⟩
  | union children ih =>
    intro rest rest' hrest hrest' h
    obtain ⟨hheading, hbody⟩ := heading_unique hrest hrest' h
    obtain ⟨others, rfl⟩ := eq_union_of_kind (kind_eq_of_heading_eq hheading).symm
    rw [body_union, body_union, List.cons.injEq] at hbody
    obtain ⟨hviews, heq⟩ := bracket_unique (fun child hchild other hother =>
        ih child hchild (ha.of_mem hchild) (hb.of_mem hother))
      (fun child _ => typeText_append_ne child) (fun other _ => typeText_append_ne other) hbody.2
    exact ⟨by simp [skeleton, hviews], heq⟩
  | _ =>
    refine determines_of_isLeaf ?_
    simp [IsLeaf, kind]

/-- Nodes have the same type on one line if and only if they have the same skeleton: the same kinds
at every position, the same field names in the same order, as many alternatives in the same order
and the same name at every leaf. -/
theorem typeText_unambiguous {a b : Node} (ha : a.HasPlainNames) (hb : b.HasPlainNames) :
    a.typeText = b.typeText ↔ a.skeleton = b.skeleton := by
  refine ⟨fun h => ?_, typeText_eq_of_skeleton_eq⟩
  have hend : Pauses [] := by simp [Stops]
  have htext : a.typeText.toList ++ [] = b.typeText.toList ++ [] := by rw [h]
  exact (determines_typeText ha hb hend hend htext).1

/-- Two nodes with an empty name, a name that is a word of the types, an absent element and a union
of one alternative.  Their bounds and shapes differ, their texts do not. -/
theorem typeText_unambiguous_words :
    let left := struct [("struct", union [integer (-3) 5]), ("", list void)] (.ofList ["a"])
    let right := struct [("struct", union [integer 0 100]), ("", list void)] .empty
    left.typeText = "struct<struct:uniontype<tinyint>,:array<void>>" ∧
      left.HasPlainNames ∧ right.HasPlainNames ∧ left.typeText = right.typeText ∧
        left.skeleton = right.skeleton := by
  intro left right
  have hleft : left.HasPlainNames := by decide
  have hright : right.HasPlainNames := by decide
  have htext : left.typeText = right.typeText := by rfl
  exact ⟨by rfl, hleft, hright, htext, (typeText_unambiguous hleft hright).mp htext⟩

/-- A name with a comma and a colon is read as two fields. -/
example : (struct [("a:int,b", null)] .empty).typeText =
    (struct [("a", integer 0 70000), ("b", null)] .empty).typeText := by
  rfl

end Node

end RecordSchema
