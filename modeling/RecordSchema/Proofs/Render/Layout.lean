import RecordSchema.Proofs.Render.Context

/-!
# Layout

A type is spread over lines for the eye only.  The indented type and the columns of a table are
written by rules of their own, with their own separators and margins, but without blanks and line
ends they are the type on one line (`layout_only`).

`unspaced` takes blanks and line ends out of a text.  It goes along with joining texts, so that the
two ways to write a node are compared part by part.
-/

namespace RecordSchema

/-- A text without its blanks and line ends. -/
def unspaced (text : String) : String :=
  .ofList (text.toList.filter fun c => decide (c ≠ ' ' ∧ c ≠ '\n'))

@[simp] lemma unspaced_append (a b : String) : unspaced (a ++ b) = unspaced a ++ unspaced b := by
  simp [unspaced]

@[simp] lemma unspaced_empty : unspaced "" = "" := rfl

lemma unspaced_intercalate (separator : String) (texts : List String) :
    unspaced (separator.intercalate texts) =
      (unspaced separator).intercalate (texts.map unspaced) := by
  induction texts with
  | nil => simp
  | cons text texts ih =>
    cases texts with
    | nil => simp
    | cons next texts =>
      rw [String.intercalate_cons_cons, unspaced_append, unspaced_append, ih]
      simp [String.intercalate_cons_cons]

@[simp] lemma unspaced_blanks (count : ℤ) : unspaced (blanks count) = "" := by
  simp [unspaced, blanks]

namespace Node

/-- Without blanks and line ends, an indented type is the type on one line. -/
theorem unspaced_indented (node : Node) (indent margin : ℤ) :
    unspaced (node.indented indent margin) = unspaced node.typeText := by
  have hspaced : unspaced "struct <\n" = unspaced "struct<" ∧ unspaced ",\n" = unspaced "," ∧
      unspaced ": " = unspaced ":" ∧ unspaced "array <" = unspaced "array<" ∧
      unspaced "uniontype <" = unspaced "uniontype<" := by
    decide
  obtain ⟨hstruct, hcomma, hcolon, harray, hunion⟩ := hspaced
  induction node using induction generalizing margin with
  | struct fields shapes ih =>
    have hfields : (indentedFields indent margin fields).map unspaced =
        (fieldTexts fields).map unspaced := by
      simp only [indentedFields_eq_map, fieldTexts_eq_map, List.map_map]
      refine List.map_congr_left fun field hfield => ?_
      simp [ih field hfield, hcolon]
    simp only [indented, typeText, unspaced_append, unspaced_intercalate, hfields, hstruct, hcomma]
  | list element ih => simp only [indented, typeText, unspaced_append, ih, harray]
  | union children ih =>
    have hchildren : (indentedAll indent (margin + indent) children).map unspaced =
        (typeTexts children).map unspaced := by
      simp only [indentedAll_eq_map, typeTexts_eq_map, List.map_map]
      exact List.map_congr_left fun child hchild => ih child hchild _
    simp only [indented, typeText, unspaced_append, unspaced_intercalate, hchildren, hunion]
  | _ => rfl

/-- Without blanks and line ends, a column is the name of its field and the type on one line. -/
lemma unspaced_columnText (indent : ℤ) (field : String × Node) :
    unspaced (columnText indent field) = unspaced (field.1 ++ field.2.typeText) := by
  have hblank : unspaced " " = "" := rfl
  simp [columnText, unspaced_indented, hblank]

/-- A struct can be declared, and without blanks and line ends the declaration is its fields, each
with its name and its type on one line, between the opening and the closing bracket. -/
theorem exists_tableText (indent : ℤ) (tableName : String) (fields : List (String × Node))
    (shapes : ShapeSet) : ∃ text, tableText indent tableName (.struct fields shapes) = .ok text ∧
      unspaced text = unspaced ("create table " ++ tableName ++ " (" ++
        ",".intercalate (fields.map fun field => field.1 ++ field.2.typeText) ++ ")") := by
  have hspaced : unspaced " (\n" = unspaced " (" ∧ unspaced ")\n" = unspaced ")" ∧
      unspaced ",\n" = unspaced "," ∧ unspaced "\n" = "" := by
    decide
  obtain ⟨hopen, hclose, hcomma, hline⟩ := hspaced
  refine ⟨_, rfl, ?_⟩
  cases fields with
  | nil => simp [hopen, hclose]
  | cons field fields =>
    have hcolumns : ((field :: fields).map (columnText indent)).map unspaced =
        ((field :: fields).map fun field => field.1 ++ field.2.typeText).map unspaced := by
      simp only [List.map_map]
      exact List.map_congr_left fun other _ => unspaced_columnText indent other
    simp only [List.isEmpty_cons, Bool.false_eq_true, if_false, unspaced_append,
      unspaced_intercalate, hcolumns, hopen, hclose, hcomma, hline, String.empty_append,
      String.append_assoc]

/-- The indented type and the type on one line differ in blanks and line ends only, for any node,
indent and margin; and so do the declaration of a table and the list of its fields. -/
theorem layout_only :
    (∀ (node : Node) (indent margin : ℤ),
      unspaced (node.indented indent margin) = unspaced node.typeText) ∧
    ∀ (indent : ℤ) (tableName : String) (fields : List (String × Node)) (shapes : ShapeSet),
      ∃ text, tableText indent tableName (.struct fields shapes) = .ok text ∧
        unspaced text = unspaced ("create table " ++ tableName ++ " (" ++
          ",".intercalate (fields.map fun field => field.1 ++ field.2.typeText) ++ ")") :=
  ⟨unspaced_indented, exists_tableText⟩

/-- A negative margin, an absent element and a name with a blank. -/
example : (struct [("a b", list .void), ("c", union [])] .empty).indented 3 (-2) =
    "struct <\na b: array <void>,\nc: uniontype <>>" := by
  rfl

end Node

end RecordSchema
