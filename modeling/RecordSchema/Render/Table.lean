import RecordSchema.Render.TypeText
import RecordSchema.Failure
import RecordSchema.Text.Blank

/-!
# Table declarations

The same type spread over lines: the fields of a struct stand below each other, indented by
their depth.  A struct at the top can be declared as a table with one column for each field.
-/

namespace RecordSchema

namespace Node

mutual

/-- The type of a node with the fields of structs on lines of their own, indented by `margin`.
Every level, lists and unions included, moves the margin by `indent`. -/
def indented (indent margin : Int) : Node → String
  | .struct fields _ =>
    "struct <\n" ++ ",\n".intercalate (indentedFields indent margin fields) ++ ">"
  | .list element => "array <" ++ element.indented indent (margin + indent) ++ ">"
  | .union children =>
    "uniontype <" ++ ",".intercalate (indentedAll indent (margin + indent) children) ++ ">"
  | node => node.primitiveName

/-- The lines of the fields of a struct. -/
def indentedFields (indent margin : Int) : List (String × Node) → List String
  | [] => []
  | (name, node) :: fields =>
    (blanks margin ++ name ++ ": " ++ node.indented indent (margin + indent)) ::
      indentedFields indent margin fields

/-- The types of the alternatives of a union. -/
def indentedAll (indent margin : Int) : List Node → List String
  | [] => []
  | node :: nodes => node.indented indent margin :: indentedAll indent margin nodes

end

/-- The blanks for each level unless asked otherwise. -/
def defaultIndent : Int := 3

/-- The name of a table unless asked otherwise. -/
def defaultTableName : String := "tbl"

/-- The line of one column, without the comma that parts it from the next one. -/
def columnText (indent : Int) (field : String × Node) : String :=
  blanks indent ++ field.1 ++ " " ++ field.2.indented indent (2 * indent)

/-- A declaration of a table with a column for each field.  Nothing is declared when nothing has
been observed, and a type other than a struct cannot be declared. -/
def tableText (indent : Int) (tableName : String) : Node → Except Failure String
  | .void => .ok ""
  | .struct fields _ =>
    let columns :=
      if fields.isEmpty then ""
      else ",\n".intercalate (fields.map (columnText indent)) ++ "\n"
    .ok ("create table " ++ tableName ++ " (\n" ++ columns ++ ")\n")
  | node => .error (.notATable node.typeText)

end Node

end RecordSchema
