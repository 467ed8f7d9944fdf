import RecordSchema.Proofs.Node.Labels
import RecordSchema.Proofs.Render.Layout
import RecordSchema.Proofs.Render.ReportParts
import RecordSchema.Proofs.Text.Returns

/-!
# Carriage returns in reports

Names of fields are written into a report as they are, and so is the name of a table.  Nothing else
can bring a carriage return into it, whatever the style (`hasReturn_report`): the layout has none,
and numbers are written with digits.
-/

namespace RecordSchema

open Newline (HasReturn)

/-- Blanks and line ends are no returns. -/
lemma hasReturn_unspaced {text : String} : HasReturn (unspaced text) ↔ HasReturn text := by
  rw [HasReturn, unspaced, String.toList_ofList, List.mem_filter]
  exact and_iff_left (by decide)

namespace Node

/-- A field of the node, at any depth, has a carriage return in its name. -/
def NamesReturn (node : Node) : Prop := ∃ name, Label.name name ∈ node.labels ∧ HasReturn name

/-! ### Names in types -/

lemma namesReturn_struct {fields : List (String × Node)} {shapes : ShapeSet} :
    (struct fields shapes).NamesReturn ↔
      ∃ field ∈ fields, HasReturn field.1 ∨ field.2.NamesReturn := by
  constructor
  · rintro ⟨name, hname, hreturn⟩
    rcases mem_labels_struct.mp hname with ⟨shape, -, heq⟩ | ⟨field, hfield, heq | hlabel⟩
    · cases heq
    · cases heq
      exact ⟨field, hfield, Or.inl hreturn⟩
    · exact ⟨field, hfield, Or.inr ⟨name, hlabel, hreturn⟩⟩
  · rintro ⟨field, hfield, hreturn | ⟨name, hname, hreturn⟩⟩
    · exact ⟨field.1, mem_labels_struct.mpr (Or.inr ⟨field, hfield, Or.inl rfl⟩), hreturn⟩
    · exact ⟨name, mem_labels_struct.mpr (Or.inr ⟨field, hfield, Or.inr hname⟩), hreturn⟩

lemma namesReturn_union {children : List Node} :
    (union children).NamesReturn ↔ ∃ child ∈ children, child.NamesReturn := by
  simp only [NamesReturn, mem_labels_union]
  constructor
  · rintro ⟨name, ⟨child, hchild, hname⟩, hreturn⟩
    exact ⟨child, hchild, name, hname, hreturn⟩
  · rintro ⟨child, hchild, name, hname, hreturn⟩
    exact ⟨name, ⟨child, hchild, hname⟩, hreturn⟩

lemma not_namesReturn_of_labels_eq_nil {node : Node} (h : node.labels = []) :
    ¬ node.NamesReturn := by
  rintro ⟨name, hname, -⟩
  rw [h] at hname
  cases hname

lemma not_hasReturn_primitiveName (node : Node) : ¬ HasReturn node.primitiveName := by
  cases node with
  | integer min max =>
    show ¬ HasReturn (integerTypeName min max)
    unfold integerTypeName
    split_ifs <;> decide
  | floating min max =>
    show ¬ HasReturn (floatingTypeName min max)
    unfold floatingTypeName
    split <;> decide
  | struct | list | union =>
    show ¬ HasReturn ""
    decide
  | _ => decide

/-- A type on one line has the returns of its names. -/
theorem hasReturn_typeText (node : Node) : HasReturn node.typeText ↔ node.NamesReturn := by
  have hcomma : ¬ HasReturn "," := by decide
  have hbrackets : ¬ HasReturn "struct<" ∧ ¬ HasReturn "array<" ∧ ¬ HasReturn "uniontype<" ∧
      ¬ HasReturn ">" ∧ ¬ HasReturn ":" := by decide
  obtain ⟨hstruct, harray, hunion, hclose, hcolon⟩ := hbrackets
  induction node using induction with
  | struct fields shapes ih =>
    rw [typeText, fieldTexts_eq_map, namesReturn_struct]
    simp only [Newline.hasReturn_append, Newline.hasReturn_intercalate hcomma, List.mem_map,
      exists_exists_and_eq_and, hstruct, hclose, hcolon, false_or, or_false]
    exact exists_congr fun field => and_congr_right fun hfield => or_congr_right (ih field hfield)
  | list element ih =>
    rw [typeText]
    simp only [Newline.hasReturn_append, harray, hclose, false_or, or_false]
    exact ih
  | union children ih =>
    rw [typeText, typeTexts_eq_map, namesReturn_union]
    simp only [Newline.hasReturn_append, Newline.hasReturn_intercalate hcomma, List.mem_map,
      exists_exists_and_eq_and, hunion, hclose, false_or, or_false]
    exact exists_congr fun child => and_congr_right fun hchild => ih child hchild
  | _ =>
    exact iff_of_false (not_hasReturn_primitiveName _) (not_namesReturn_of_labels_eq_nil rfl)

/-! ### Names in tables and listings -/

/-- A table of a struct has the returns of its name and of the names of fields. -/
lemma hasReturn_tableText {indent : ℤ} {tableName text : String} {fields : List (String × Node)}
    {shapes : ShapeSet} (h : tableText indent tableName (.struct fields shapes) = .ok text) :
    HasReturn text ↔ HasReturn tableName ∨ (struct fields shapes).NamesReturn := by
  have hliterals : ¬ HasReturn "," ∧ ¬ HasReturn "create table " ∧ ¬ HasReturn " (" ∧
      ¬ HasReturn ")" := by decide
  obtain ⟨hcomma, hcreate, hopen, hclose⟩ := hliterals
  obtain ⟨text', htext, hunspaced⟩ := exists_tableText indent tableName fields shapes
  obtain rfl : text = text' := Except.ok.inj (h.symm.trans htext)
  rw [← hasReturn_unspaced, hunspaced, hasReturn_unspaced, namesReturn_struct]
  simp only [Newline.hasReturn_append, Newline.hasReturn_intercalate hcomma, List.mem_map,
    exists_exists_and_eq_and, hasReturn_typeText, hcreate, hopen, hclose, false_or, or_false]

/-- The lines for the fields of a struct, of which there are some, all have the path in them. -/
lemma hasReturn_leavesOfFields {fields : List (String × Node)} {path : String} (hne : fields ≠ [])
    (h : ∀ field ∈ fields,
      (∃ leaf ∈ field.2.leaves (path ++ "." ++ field.1), HasReturn leaf.text) ↔
        HasReturn (path ++ "." ++ field.1) ∨ field.2.NamesReturn) :
    (∃ leaf ∈ leavesOfFields path fields, HasReturn leaf.text) ↔
      HasReturn path ∨ ∃ field ∈ fields, HasReturn field.1 ∨ field.2.NamesReturn := by
  have hpoint : ¬ HasReturn "." := by decide
  have hline (field : String × Node) (hfield : field ∈ fields) :
      (∃ leaf ∈ field.2.leaves (path ++ "." ++ field.1), HasReturn leaf.text) ↔
        HasReturn path ∨ HasReturn field.1 ∨ field.2.NamesReturn := by
    simp only [h field hfield, Newline.hasReturn_append, hpoint, or_false, or_assoc]
  rw [leavesOfFields_eq_flatMap]
  constructor
  · rintro ⟨leaf, hleaf, hreturn⟩
    obtain ⟨field, hfield, hleaf⟩ := List.mem_flatMap.mp hleaf
    exact ((hline field hfield).mp ⟨leaf, hleaf, hreturn⟩).imp_right
      fun hnames => ⟨field, hfield, hnames⟩
  · intro hreturn
    -- a return of the path shows in the lines of any field
    obtain ⟨field, hfield, hreturn⟩ : ∃ field ∈ fields,
        HasReturn path ∨ HasReturn field.1 ∨ field.2.NamesReturn := by
      rcases hreturn with hpath | ⟨field, hfield, hnames⟩
      · obtain ⟨field, hfield⟩ := List.exists_mem_of_ne_nil fields hne
        exact ⟨field, hfield, Or.inl hpath⟩
      · exact ⟨field, hfield, Or.inr hnames⟩
    obtain ⟨leaf, hleaf, hreturn⟩ := (hline field hfield).mpr hreturn
    exact ⟨leaf, List.mem_flatMap.mpr ⟨field, hfield, hleaf⟩, hreturn⟩

/-- The lines of a listing have the returns of the root and of the names of fields. -/
lemma hasReturn_leaves (node : Node) (path : String) :
    (∃ leaf ∈ node.leaves path, HasReturn leaf.text) ↔ HasReturn path ∨ node.NamesReturn := by
  have hcolon : ¬ HasReturn ": " := by decide
  have hlist : ¬ HasReturn ".list" := by decide
  have single {node : Node} (path : String) (h : node.leaves path = [⟨path, node⟩]) :
      (∃ leaf ∈ node.leaves path, HasReturn leaf.text) ↔ HasReturn path ∨ node.NamesReturn := by
    simp only [h, List.mem_singleton, exists_eq_left, Leaf.text, Newline.hasReturn_append,
      hasReturn_typeText, hcolon, or_false]
  induction node using induction generalizing path with
  | struct fields shapes ih =>
    cases fields with
    | nil => exact single path rfl
    | cons field fields =>
      rw [leaves, namesReturn_struct]
      exact hasReturn_leavesOfFields (List.cons_ne_nil _ _) fun other hother => ih other hother _
  | list element ih =>
    refine (ih (path ++ ".list")).trans ?_
    rw [Newline.hasReturn_append, or_iff_left hlist]
    exact Iff.rfl
  | _ => exact single path rfl

lemma hasReturn_listing (root : String) (node : Node) :
    HasReturn (node.listing root) ↔ HasReturn root ∨ node.NamesReturn := by
  have hline : ¬ HasReturn "\n" := by decide
  rw [listing, Newline.hasReturn_append, Newline.hasReturn_intercalate hline, or_iff_left hline,
    ← hasReturn_leaves]
  simp only [List.mem_map, exists_exists_and_eq_and]

end Node

/-! ### Reports -/

variable {style : ReportStyle} {node : Node} {count : ℕ} {text : String}

/-- The paragraph about shapes has the returns of the shapes. -/
lemma exists_shape_of_shapesPart (h : HasReturn (shapesPart style node)) :
    ∃ shape, Node.Label.shape shape ∈ node.labels ∧ HasReturn shape := by
  unfold shapesPart at h
  split at h
  · next fields shapes _ =>
    have hliterals : ¬ HasReturn "\n" ∧ ¬ HasReturn " distinct shapes\n" ∧
        ¬ HasReturn "   \x7b" ∧ ¬ HasReturn "\x7d\n" := by decide
    obtain ⟨hline, htitle, hopen, hclose⟩ := hliterals
    simp only [shapesText, Newline.hasReturn_append, Newline.hasReturn_join, List.mem_map,
      exists_exists_and_eq_and, Newline.not_hasReturn_toString, hline, htitle, hopen, hclose,
      false_or, or_false] at h
    obtain ⟨shape, hshape, hreturn⟩ := h
    exact ⟨shape, Node.mem_labels_struct.mpr (Or.inl ⟨shape, hshape, rfl⟩), hreturn⟩
  · exact absurd h (by decide)

/-- The schema has the returns of the names of fields and, as a table, of the name of the table. -/
lemma hasReturn_schemaText (h : schemaText style node = .ok text) :
    HasReturn text ↔
      node.NamesReturn ∨ (style.flat = false ∧ node.kind ≠ .void ∧ HasReturn style.tableName) := by
  cases hflat : style.flat with
  | true =>
    rw [schemaText_of_flat hflat] at h
    cases h
    have hroot : ¬ HasReturn recordPath := by decide
    simp [Node.hasReturn_listing, hroot]
  | false =>
    rw [schemaText_of_table hflat] at h
    cases node with
    | void =>
      cases h
      have hnames : ¬ Node.void.NamesReturn := Node.not_namesReturn_of_labels_eq_nil rfl
      simp [HasReturn, Node.kind, hnames]
    | struct fields shapes =>
      rw [Node.hasReturn_tableText h]
      simp [Node.kind, or_comm]
    | _ => cases h

/-- A report has the returns of the names of fields and, if it declares a table, of the name of the
table, as long as the shapes have none but those. -/
theorem hasReturn_report (h : report style count node = .ok text)
    (hshapes : ∀ shape, Node.Label.shape shape ∈ node.labels → HasReturn shape →
      node.NamesReturn) :
    HasReturn text ↔
      node.NamesReturn ∨ (style.flat = false ∧ node.kind ≠ .void ∧ HasReturn style.tableName) := by
  rw [report_eq] at h
  cases hschema : schemaText style node with
  | error failure =>
    rw [hschema] at h
    cases h
  | ok schema =>
    rw [hschema] at h
    cases h
    have htitle : ¬ HasReturn " records read\n\n" := by decide
    have hpart : HasReturn (shapesPart style node) → node.NamesReturn := by
      intro hreturn
      obtain ⟨shape, hshape, hreturn⟩ := exists_shape_of_shapesPart hreturn
      exact hshapes shape hshape hreturn
    simp only [Newline.hasReturn_append, Newline.not_hasReturn_toString, htitle, false_or,
      hasReturn_schemaText hschema]
    tauto

end RecordSchema
