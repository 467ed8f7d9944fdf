import RecordSchema.Node

/-!
# Type texts

A node on one line, as in `struct<a:int,b:array<string>>`.  Numbers are given the narrowest name
that holds the range observed.
-/

namespace RecordSchema

/-- The integer type for a range: the first that holds both bounds, or the widest. -/
def integerTypeName (min max : Int) : String :=
  if -0x80 ≤ min ∧ max ≤ 0x7f then "tinyint"
  else if -0x8000 ≤ min ∧ max ≤ 0x7fff then "smallint"
  else if -0x80000000 ≤ min ∧ max ≤ 0x7fffffff then "int"
  else "bigint"

/-- The floating-point type for a range. -/
def floatingTypeName (min max : Double) : String :=
  if Double.exceedsSingle min max then "double" else "float"

namespace Node

/-- The name of a node without parts.  A node with parts has no name of its own. -/
def primitiveName : Node → String
  | .void => "void"
  | .null => "null"
  | .boolean => "boolean"
  | .integer min max => integerTypeName min max
  | .floating min max => floatingTypeName min max
  | .string => "string"
  | .binary => "binary"
  | .timestamp => "timestamp"
  | .struct .. | .list _ | .union _ => ""

mutual

/-- The type of a node on one line. -/
def typeText : Node → String
  | .struct fields _ => "struct<" ++ ",".intercalate (fieldTexts fields) ++ ">"
  | .list element => "array<" ++ element.typeText ++ ">"
  | .union children => "uniontype<" ++ ",".intercalate (typeTexts children) ++ ">"
  | node => node.primitiveName

/-- Each field as its name, a colon and its type. -/
def fieldTexts : List (String × Node) → List String
  | [] => []
  | (name, node) :: fields => (name ++ ":" ++ node.typeText) :: fieldTexts fields

/-- The types of the nodes of a list. -/
def typeTexts : List Node → List String
  | [] => []
  | node :: nodes => node.typeText :: typeTexts nodes

end

end Node

end RecordSchema
