import RecordSchema.Render.Table
import RecordSchema.Render.Listing
import RecordSchema.Classification

/-!
# Reports

What a run prints: how many records were read, the schema as a table declaration or as a listing,
and on request the distinct key sets of the records.
-/

namespace RecordSchema

/-- How a schema is reported. -/
structure ReportStyle where
  tableName : String := Node.defaultTableName
  /-- A listing in place of a table declaration. -/
  flat : Bool := false
  /-- Append the distinct shapes of the records. -/
  shapes : Bool := false
deriving DecidableEq, Repr, Inhabited

/-- The paragraph about shapes: how many there are, and each in braces on a line. -/
def shapesText (shapes : ShapeSet) : String :=
  toString shapes.toList.length ++ " distinct shapes\n" ++
    String.join (shapes.toList.map fun shape => "   \x7b" ++ shape ++ "\x7d\n")

/-- The report on a number of records and the node inferred from them. -/
def report (style : ReportStyle) (records : Nat) (node : Node) : Except Failure String := do
  let schema ←
    if style.flat then .ok (node.listing recordPath)
    else node.tableText Node.defaultIndent style.tableName
  let shapes :=
    match style.shapes, node with
    | true, .struct _ shapes => "\n" ++ shapesText shapes
    | _, _ => ""
  return toString records ++ " records read\n\n" ++ schema ++ shapes

end RecordSchema
