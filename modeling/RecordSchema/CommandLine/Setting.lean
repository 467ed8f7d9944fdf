import RecordSchema.Number.Shortest
import RecordSchema.Number.Typed
import RecordSchema.Text.Quoted
import RecordSchema.Value

/-!
# Settings

What a command line comes to is a list of named settings.  A setting can be of any type, since
settings may also be given without a command line that checks them.
-/

namespace RecordSchema

/-- The value of one setting. -/
inductive Setting where
  | null
  | boolean (value : Bool)
  | integer (value : Int)
  | number (value : Double)
  | text (value : String)
  | list (items : List Setting)
deriving Inhabited, Repr

/-- Named settings, each name once. -/
abbrev Settings := List (String × Setting)

namespace Setting

/-- The name of the type of a setting, as messages give it. -/
def typeName : Setting → String
  | .null => "NoneType"
  | .boolean _ => "bool"
  | .integer _ => "int"
  | .number _ => "float"
  | .text _ => "str"
  | .list _ => "list"

/-- A setting counts as given unless it is null, false, zero or empty. -/
def holds : Setting → Bool
  | .null => false
  | .boolean value => value
  | .integer value => value != 0
  | .number value => !value.eqv (.number false 0)
  | .text value => !value.isEmpty
  | .list items => !items.isEmpty

/-- The number that a setting stands for, if it is one.  A switch counts as zero or one. -/
def toInteger? : Setting → Option Int
  | .boolean value => some (if value then 1 else 0)
  | .integer value => some value
  | _ => none

/-- The text of a setting between others: texts are in quotes. -/
def quoted : Setting → String
  | .null => "None"
  | .boolean value => if value then "True" else "False"
  | .integer value => toString value
  | .number value => value.text
  | .text value => Quoted.text value
  | .list items => "[" ++ String.intercalate ", " (items.map quoted) ++ "]"

/-- The text of a setting that stands alone: texts are as they are. -/
def shown : Setting → String
  | .text value => value
  | setting => setting.quoted

/-- An integer equals a double if the double is that very number. -/
def integerAgrees (n : Int) (x : Double) : Bool :=
  match x with
  | .nan => false
  | .number negative magnitude =>
    let units := Double.unitsOfMagnitude magnitude
    decide (magnitude < Double.infinityMagnitude) && n.natAbs * Double.unitsInOne == units &&
      (n == 0 || decide (n < 0) == negative)

mutual

/-- Two settings are the same value; numbers are compared as numbers, whatever their types. -/
def agrees : Setting → Setting → Bool
  | .null, .null => true
  | .text a, .text b => a == b
  | .list as, .list bs => listAgrees as bs
  | .number a, .number b => a.eqv b
  | .number a, b =>
    match b.toInteger? with
    | some n => integerAgrees n a
    | none => false
  | a, .number b =>
    match a.toInteger? with
    | some n => integerAgrees n b
    | none => false
  | a, b =>
    match a.toInteger?, b.toInteger? with
    | some m, some n => m == n
    | _, _ => false

/-- Two lists agree item by item. -/
def listAgrees : List Setting → List Setting → Bool
  | [], [] => true
  | a :: as, b :: bs => agrees a b && listAgrees as bs
  | _, _ => false

end

end Setting

namespace Settings

/-- The value of a name. -/
def get? (settings : Settings) (name : String) : Option Setting := settings.lookup name

/-- Set the value of a name. -/
def set (settings : Settings) (name : String) (value : Setting) : Settings :=
  putEntry name value settings

/-- Set the value of a name that has none yet. -/
def setDefault (settings : Settings) (name : String) (value : Setting) : Settings :=
  if (settings.get? name).isSome then settings else settings.set name value

/-- Take over all settings of another list. -/
def update (settings others : Settings) : Settings :=
  others.foldl (fun settings (name, value) => settings.set name value) settings

end Settings

end RecordSchema
