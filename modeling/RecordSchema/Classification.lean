import RecordSchema.Value
import RecordSchema.Failure
import RecordSchema.Node.Merge
import RecordSchema.Text.Timestamp
import RecordSchema.Text.Hex

/-!
# Classification of values

Each parsed value has an initial type node.  Numbers count as integers when they are written
without a fraction, also when a power of ten is written; such a number has to fit 64 bits.  The
elements of an array are merged into one node, and the members of an object become fields.

Values are visited in the order in which they were read, and the first one that cannot be
classified decides the failure.  Its location is the path of the whole value, extended by the
name of every member and by `list` for every array on the way.  Neither the depth of a value nor the
number of digits of an integer is a reason to fail by itself.
-/

namespace RecordSchema

/-- Which strings are told apart from plain ones. -/
structure Detection where
  /-- Date and time strings become timestamps. -/
  timestamps : Bool := true
  /-- Strings of hexadecimal digit pairs become binary data. -/
  binary : Bool := true
deriving DecidableEq, Repr, Inhabited

/-- The least signed 64-bit integer. -/
def minLong : Int := -0x8000000000000000

/-- The greatest signed 64-bit integer. -/
def maxLong : Int := 0x7fffffffffffffff

/-- The node of one integer, which has to fit 64 bits. -/
def classifyInteger (value : Int) (path : String) : Except Failure Node :=
  if value < minLong ∨ maxLong < value then .error (.outOfRange (.integer value) path)
  else .ok (.integer value value)

/-- The node of one decimal.  Without digits after the point it is an integer; one whose first
digit stands for `10 ^ 19` or more is refused without writing it out. -/
def classifyDecimal (value : Decimal) (path : String) : Except Failure Node :=
  let fractional :=
    match value.toDouble? with
    | some double => .ok (.floating double double)
    | none => .error .signalingNaN
  match value with
  | .finite negative coefficient exponent =>
    if exponent < 0 then fractional
    else if coefficient = 0 then .ok (.integer 0 0)
    else if 18 < Decimal.adjusted coefficient exponent then
      .error (.outOfRange (.decimal value) path)
    else
      let magnitude : Int := coefficient * Nat.pow 10 exponent.toNat
      classifyInteger (if negative then -magnitude else magnitude) path
  | _ => fractional

/-- The node of one string.  A timestamp is recognised before binary data. -/
def classifyString (detection : Detection) (value : String) : Node :=
  if detection.timestamps && Timestamp.isTimestamp value then .timestamp
  else if detection.binary && Hex.isHex value then .binary
  else .string

mutual

/-- The node of one value at a location. -/
def classify (detection : Detection) (path : String) : Value → Except Failure Node
  | .null => .ok .null
  | .boolean _ => .ok .boolean
  | .integer value => classifyInteger value path
  | .decimal value => classifyDecimal value path
  | .double value => .ok (.floating value value)
  | .string value => .ok (classifyString detection value)
  | .array items => do
    let element ← classifyItems detection (path ++ ".list") .null items
    return .list element
  | .object members => do
    let fields ← classifyMembers detection path members
    return .ofFields fields (.ofList [shapeSignature (members.map (·.1))])
  | .unsupported typeName => .error (.unsupportedValue typeName path)

/-- The merge of a node with the nodes of further array elements. -/
def classifyItems (detection : Detection) (path : String) (element : Node) :
    List Value → Except Failure Node
  | [] => .ok element
  | item :: items => do
    let node ← classify detection path item
    classifyItems detection path (element.merge node) items

/-- A field for each member of an object. -/
def classifyMembers (detection : Detection) (path : String) :
    List (String × Value) → Except Failure (List (String × Node))
  | [] => .ok []
  | (name, value) :: members => do
    let node ← classify detection (path ++ "." ++ name) value
    let fields ← classifyMembers detection path members
    return (name, node) :: fields

end

/-- The location of a whole record. -/
def recordPath : String := "root"

namespace Node

/-- The node that also covers one more record. -/
def fold (detection : Detection) (accumulator : Node) (record : Value) : Except Failure Node :=
  (classify detection recordPath record).map accumulator.merge

/-- The node that covers a list of records; `void` if there is none. -/
def infer (detection : Detection) (records : List Value) : Except Failure Node :=
  records.foldlM (fold detection) .void

end Node

end RecordSchema
