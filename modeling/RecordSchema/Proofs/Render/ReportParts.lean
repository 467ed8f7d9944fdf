import Mathlib.Tactic
import RecordSchema.Report
import RecordSchema.Proofs.Traversal

/-!
# The parts of a report

A report says how many records there are, then the schema, then the shapes if they are asked for and
the schema is a struct (`report_eq`).  Only the schema can fail, and it fails just when a table is
to be declared for something that is neither absent nor a struct (`report_eq_error_iff`).
-/

namespace RecordSchema

/-- The schema as the style has it. -/
def schemaText (style : ReportStyle) (node : Node) : Except Failure String :=
  if style.flat then .ok (node.listing recordPath)
  else node.tableText Node.defaultIndent style.tableName

/-- The paragraph about shapes, where there is one. -/
def shapesPart (style : ReportStyle) (node : Node) : String :=
  match style.shapes, node with
  | true, .struct _ shapes => "\n" ++ shapesText shapes
  | _, _ => ""

variable {style : ReportStyle} {node : Node}

lemma report_eq (style : ReportStyle) (records : ℕ) (node : Node) :
    report style records node = (schemaText style node).map fun schema =>
      toString records ++ " records read\n\n" ++ schema ++ shapesPart style node := by
  unfold report schemaText
  cases style.flat with
  | true => rfl
  | false =>
    show (node.tableText Node.defaultIndent style.tableName >>= _) =
      Except.map _ (node.tableText _ _)
    cases node.tableText Node.defaultIndent style.tableName <;> rfl

lemma schemaText_of_flat (h : style.flat = true) :
    schemaText style node = .ok (node.listing recordPath) :=
  if_pos h

lemma schemaText_of_table (h : style.flat = false) :
    schemaText style node = node.tableText Node.defaultIndent style.tableName := by
  rw [schemaText, if_neg (by simp [h])]

/-- Of what is neither absent nor a struct there is no table. -/
lemma Node.tableText_eq_error_iff (node : Node) (indent : ℤ) (tableName : String)
    (failure : Failure) :
    node.tableText indent tableName = .error failure ↔
      (node.kind ≠ .void ∧ node.kind ≠ .struct) ∧ failure = .notATable node.typeText := by
  cases node <;> simp [tableText, kind, eq_comm (a := failure)]

/-- A report fails just when a table is to be declared for something that is neither absent nor a
struct, and the failure tells what it is. -/
theorem report_eq_error_iff {records : ℕ} {failure : Failure} :
    report style records node = .error failure ↔
      style.flat = false ∧ (node.kind ≠ .void ∧ node.kind ≠ .struct) ∧
        failure = .notATable node.typeText := by
  rw [report_eq]
  cases hflat : style.flat with
  | true => simp [schemaText_of_flat hflat, Except.map]
  | false =>
    have htable := node.tableText_eq_error_iff Node.defaultIndent style.tableName failure
    rw [schemaText_of_table hflat, ← htable]
    cases node.tableText Node.defaultIndent style.tableName <;> simp [Except.map]

end RecordSchema
