import RecordSchema.Number.Decimal

/-!
# Parsed values

The values that a record is made of.  A number is an integer when it was written without a point
and without a power of ten, a decimal when it was written with one, and a double when it never
had a written form.

Numbers have any number of digits and values any depth.  A machine may refuse to convert very long
integers from or to text, or to follow very deep nesting; such limits are its own and are left out
here.
-/

namespace RecordSchema

/-- A parsed value.  An object keeps its members in the order in which their names were first
met; `unsupported` is a value of a kind that has no place in a record, known by the name of its
type. -/
inductive Value where
  | null
  | boolean (value : Bool)
  | integer (value : Int)
  | decimal (value : Decimal)
  | double (value : Double)
  | string (value : String)
  | array (items : List Value)
  | object (members : List (String × Value))
  | unsupported (typeName : String)
deriving Inhabited

/-- Set the entry of a name: a known name keeps its place and takes the new value, a new name
comes last. -/
def putEntry {α : Type} (name : String) (value : α) : List (String × α) → List (String × α)
  | [] => [(name, value)]
  | (other, old) :: rest =>
    if other = name then (name, value) :: rest else (other, old) :: putEntry name value rest

end RecordSchema
