import RecordSchema.Number.Decimal
import RecordSchema.Text.Quoted
import RecordSchema.Text.Utf8

/-!
# Errors as objects

An error belongs to a class, and its class builds it from arguments.  Errors of the system keep
these arguments.  Errors about records do not: they put a message and what it is about into one text
and keep this text in place of the arguments, and what they were built from as attributes.

An error that leaves the process in which it was raised is built again on the other side.  Its class
is given what the error has kept, and afterwards the attributes are put back
(`ErrorObject.rebuilt`).  An error about an integer out of range writes its message itself, from the
integer, so it writes another message around the finished text.
-/

namespace RecordSchema

/-- An integral number that does not fit, as it was met: as an integer, or as a decimal whose
digits were not written out. -/
inductive Literal where
  | integer (value : Int)
  | decimal (value : Decimal)
deriving DecidableEq, Repr

/-- The text of a literal, with all its digits however many there are. -/
def Literal.text : Literal → String
  | .integer value => toString value
  | .decimal value => value.text

/-! ### Messages -/

namespace Failure

/-- A message that names its context, unless the context is empty. -/
def withContext (message context : String) : String :=
  if context.isEmpty then message else message ++ " (context: " ++ context ++ ")"

/-- What is said about a number that does not fit. -/
def rangeMessage (literal : String) : String :=
  "Integer literal " ++ literal ++ " is outside the 64-bit signed range"

/-- What a failure of the system says: its number, its meaning and the path. -/
def systemMessage (number : Nat) (meaning path : String) : String :=
  "[Errno " ++ toString number ++ "] " ++ meaning ++ ": " ++ Quoted.text path

/-- What is said about bytes that are not a text. -/
def textMessage (fault : Utf8.Fault) : String :=
  "'utf-8' codec can't decode byte 0x" ++ String.ofList (Hex.fixed 2 fault.byte.toNat) ++
    " in position " ++ toString fault.position ++ ": " ++ fault.reasonText

end Failure

/-! ### Classes and their errors -/

/-- What an error is built from. -/
inductive ErrorArgument where
  | text (content : String)
  | number (value : Nat)
  | literal (value : Literal)
  /-- Bytes that are not a text, and where they are wrong. -/
  | undecoded (fault : Utf8.Fault)
deriving DecidableEq, Repr

/-- The text of an argument. -/
def ErrorArgument.shown : ErrorArgument → String
  | .text content => content
  | .number value => toString value
  | .literal value => value.text
  | .undecoded fault => Failure.textMessage fault

/-- The classes of errors. -/
inductive ErrorClass where
  /-- Errors about records.  The next three are kinds of it. -/
  | record
  /-- An integer out of range. -/
  | range
  /-- A table of something else than structs. -/
  | table
  /-- An input that is not well-formed. -/
  | input
  /-- An argument that makes no sense. -/
  | value
  /-- Bytes that are not a text. -/
  | decoding
  /-- A computation with decimals that has no result. -/
  | decimal
  /-- A failure of the system, told by its number. -/
  | system
  /-- A file that is not compressed as it should be. -/
  | archive
  /-- Compressed data that make no sense. -/
  | inflation
  /-- A file that ends too early. -/
  | ending
deriving DecidableEq, Repr

/-- What errors about records say of themselves. -/
structure ErrorAttributes where
  message? : Option String := none
  context? : Option String := none
  /-- The number that is out of range. -/
  value? : Option ErrorArgument := none
deriving DecidableEq, Repr

/-- An error: its class, the arguments that it has kept, and its attributes. -/
@[ext]
structure ErrorObject where
  kind : ErrorClass
  arguments : List ErrorArgument
  attributes : ErrorAttributes := {}
deriving DecidableEq, Repr

namespace ErrorClass

/-- An error about records.  It keeps its message and its context as one text. -/
def located (kind : ErrorClass) (message : String) (context? : Option String)
    (value? : Option ErrorArgument) : ErrorObject where
  kind
  arguments := [.text (Failure.withContext message (context?.getD ""))]
  attributes := { message? := some message, context?, value? }

/-- The error that a class builds from arguments.  Errors about records take a message and a
context, which may be left out; the message of a number out of range is written around the
number. -/
def build (kind : ErrorClass) (arguments : List ErrorArgument) : ErrorObject :=
  let first := (arguments.head?.map ErrorArgument.shown).getD ""
  let context? := arguments[1]?.map ErrorArgument.shown
  match kind with
  | .range => located .range (Failure.rangeMessage first) context? arguments.head?
  | .record => located .record first context? none
  | .table => located .table first context? none
  | .input => located .input first context? none
  | _ => { kind, arguments }

end ErrorClass

namespace ErrorObject

/-- The text of an error.  A single argument is the text; errors of the system have three. -/
def text (error : ErrorObject) : String :=
  match error.arguments with
  | [argument] => argument.shown
  | [.number number, .text meaning, .text path] => Failure.systemMessage number meaning path
  | _ => ""

/-- An error that has been built again from what it has kept. -/
def rebuilt (error : ErrorObject) : ErrorObject :=
  { error.kind.build error.arguments with attributes := error.attributes }

end ErrorObject

end RecordSchema
