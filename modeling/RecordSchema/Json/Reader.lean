import RecordSchema.Json.Escape
import RecordSchema.Json.Numeral

/-!
# Reading values

A file is a sequence of values with optional whitespace around them; nothing has to part one value
from the next.  The reader is a machine that takes one byte at a time.  It keeps what it is in the
middle of — a word, a number, a string — together with what has to come next, the containers that
are open, and the values that are complete.  Reading is a fold of its step, so what it does on two
pieces of input one after the other is what it does on the whole.

A value counts from the moment it is complete, whatever happens after it.  Containers may be open to
any depth.
-/

namespace RecordSchema.Json

/-- The parts of an input that have a meaning of their own. -/
inductive Token where
  /-- A value without parts that needs no checking. -/
  | word (value : Value)
  | number (numeral : Numeral)
  /-- What stands between two quotes. -/
  | string (raw : List UInt8)
  | openArray
  | closeArray
  | openObject
  | closeObject
  | comma
  | colon

/-- How the next byte of a string is to be taken. -/
inductive StringMode where
  | plain
  /-- After a backslash. -/
  | escape
  /-- With so many hexadecimal digits to come. -/
  | digits (left : Nat)
  /-- With so many bytes of a character to come. -/
  | continuation (left : Nat)
deriving DecidableEq, Repr

/-- What the reader is in the middle of. -/
inductive Scan where
  /-- Nothing: between two tokens. -/
  | idle
  /-- A word of which these bytes are to come. -/
  | word (rest : List UInt8) (value : Value)
  | number (numeral : Numeral)
  /-- A string with the bytes met since its quote, the last one first. -/
  | string (mode : StringMode) (met : List UInt8)

/-- What has to come next. -/
inductive Expected where
  | value
  /-- Right after an opening bracket. -/
  | valueOrClose
  | name
  /-- Right after an opening brace. -/
  | nameOrClose
  | colon
  /-- After a value inside a container. -/
  | separator
deriving DecidableEq, Repr

/-- A container that is open. -/
inductive Frame where
  /-- An array with its items so far, the last one first. -/
  | array (items : List Value)
  /-- An object with its members so far. -/
  | object (members : List (String × Value))
  /-- An object inside the member of a name. -/
  | member (members : List (String × Value)) (name : String)

/-- What is wrong with an input. -/
inductive Defect where
  | malformed
  /-- A string is no text. -/
  | text (fault : Utf8.Fault)
  /-- The powers of ten of a number are out of bounds. -/
  | number
deriving DecidableEq, Repr

/-- The state of the reader.  With no open container it expects a value. -/
structure Reader where
  scan : Scan := .idle
  expected : Expected := .value
  /-- The open containers, the innermost one first. -/
  frames : List Frame := []
  /-- The values that are complete, the last one first. -/
  values : List Value := []

/-- Why reading stopped, and the values that were complete by then, the last one first. -/
structure Stop where
  defect : Defect
  values : List Value

namespace Reader

/-- Stop here. -/
def stop (r : Reader) (defect : Defect) : Except Stop Reader := .error ⟨defect, r.values⟩

/-- Put a complete value into the innermost container, or count it if there is none. -/
def complete (r : Reader) (value : Value) : Except Stop Reader :=
  match r.frames with
  | [] => .ok { r with scan := .idle, expected := .value, values := value :: r.values }
  | .array items :: frames =>
    .ok { r with scan := .idle, expected := .separator, frames := .array (value :: items) :: frames }
  | .member members name :: frames =>
    .ok { r with
      scan := .idle, expected := .separator
      frames := .object (putEntry name value members) :: frames }
  | .object _ :: _ => r.stop .malformed

/-- Open a container. -/
def openFrame (r : Reader) (frame : Frame) (expected : Expected) : Except Stop Reader :=
  .ok { r with scan := .idle, expected, frames := frame :: r.frames }

/-- Close the innermost container, which has to be an array. -/
def closeArray (r : Reader) : Except Stop Reader :=
  match r.frames with
  | .array items :: frames => { r with frames }.complete (.array items.reverse)
  | _ => r.stop .malformed

/-- Close the innermost container, which has to be an object. -/
def closeObject (r : Reader) : Except Stop Reader :=
  match r.frames with
  | .object members :: frames => { r with frames }.complete (.object members)
  | _ => r.stop .malformed

/-- Begin the member of a name. -/
def beginMember (r : Reader) (raw : List UInt8) : Except Stop Reader :=
  match r.frames with
  | .object members :: frames =>
    match stringText raw with
    | .ok name =>
      .ok { r with scan := .idle, expected := .colon, frames := .member members name :: frames }
    | .error fault => r.stop (.text fault)
  | _ => r.stop .malformed

/-- Go on after a comma. -/
def goOn (r : Reader) : Except Stop Reader :=
  match r.frames with
  | .array _ :: _ => .ok { r with scan := .idle, expected := .value }
  | .object _ :: _ => .ok { r with scan := .idle, expected := .name }
  | _ => r.stop .malformed

/-- Take a token where a value may stand. -/
def takeValue (r : Reader) : Token → Except Stop Reader
  | .word value => r.complete value
  | .number numeral =>
    match numeral.value? with
    | some value => r.complete value
    | none => r.stop .number
  | .string raw =>
    match stringText raw with
    | .ok text => r.complete (.string text)
    | .error fault => r.stop (.text fault)
  | .openArray => r.openFrame (.array []) .valueOrClose
  | .openObject => r.openFrame (.object []) .nameOrClose
  | _ => r.stop .malformed

/-- Take a token. -/
def take (r : Reader) (token : Token) : Except Stop Reader :=
  match r.expected, token with
  | .valueOrClose, .closeArray => r.closeArray
  | .value, token => r.takeValue token
  | .valueOrClose, token => r.takeValue token
  | .nameOrClose, .closeObject => r.closeObject
  | .name, .string raw => r.beginMember raw
  | .nameOrClose, .string raw => r.beginMember raw
  | .colon, .colon => .ok { r with scan := .idle, expected := .value }
  | .separator, .comma => r.goOn
  | .separator, .closeArray => r.closeArray
  | .separator, .closeObject => r.closeObject
  | _, _ => r.stop .malformed

/-- The whitespace between tokens: tabulators, line feed, form feed, carriage return, blank. -/
def isBlank (b : UInt8) : Bool := b = 0x20 || (decide (0x09 ≤ b) && decide (b ≤ 0x0d))

/-- Take a byte that stands between two tokens. -/
def begin (r : Reader) (b : UInt8) : Except Stop Reader :=
  if isBlank b then .ok { r with scan := .idle }
  else if b = 0x22 then .ok { r with scan := .string .plain [] }
  else if b = 0x5b then r.take .openArray
  else if b = 0x5d then r.take .closeArray
  else if b = 0x7b then r.take .openObject
  else if b = 0x7d then r.take .closeObject
  else if b = 0x2c then r.take .comma
  else if b = 0x3a then r.take .colon
  else if b = 0x74 then .ok { r with scan := .word [0x72, 0x75, 0x65] (.boolean true) }
  else if b = 0x66 then .ok { r with scan := .word [0x61, 0x6c, 0x73, 0x65] (.boolean false) }
  else if b = 0x6e then .ok { r with scan := .word [0x75, 0x6c, 0x6c] .null }
  else
    match Numeral.start? b with
    | some numeral => .ok { r with scan := .number numeral }
    | none => r.stop .malformed

/-- Take a byte inside a string. -/
def stepString (r : Reader) (mode : StringMode) (met : List UInt8) (b : UInt8) :
    Except Stop Reader :=
  let goOn := fun mode => .ok { r with scan := .string mode (b :: met) }
  match mode with
  | .plain =>
    if b = 0x22 then r.take (.string met.reverse)
    else if b = backslash then goOn .escape
    else if b < 0x20 then r.stop .malformed
    else if b < 0x80 then goOn .plain
    else if b < 0xc0 then r.stop .malformed
    else if b < 0xe0 then goOn (.continuation 1)
    else if b < 0xf0 then goOn (.continuation 2)
    else if b < 0xf8 then goOn (.continuation 3)
    else r.stop .malformed
  | .escape =>
    if b = letterU then goOn (.digits 4)
    else if isLetterEscape b then goOn .plain
    else r.stop .malformed
  | .digits left =>
    if (hexDigit? b).isNone then r.stop .malformed
    else if left ≤ 1 then goOn .plain
    else goOn (.digits (left - 1))
  | .continuation left =>
    if !Utf8.isContinuation b then r.stop .malformed
    else if left ≤ 1 then goOn .plain
    else goOn (.continuation (left - 1))

/-- Take one byte. -/
def step (r : Reader) (b : UInt8) : Except Stop Reader :=
  match r.scan with
  | .idle => r.begin b
  | .word rest value =>
    match rest with
    | next :: rest =>
      if b ≠ next then r.stop .malformed
      else if rest.isEmpty then r.take (.word value)
      else .ok { r with scan := .word rest value }
    | [] => r.stop .malformed
  | .number numeral =>
    match numeral.step b with
    | .more numeral => .ok { r with scan := .number numeral }
    | .complete => do (← r.take (.number numeral)).begin b
    | .broken => r.stop .malformed
  | .string mode met => r.stepString mode met b

/-- Take bytes one after the other. -/
def run (r : Reader) (bytes : List UInt8) : Except Stop Reader := bytes.foldlM step r

/-- The input ends here, which counts as one more blank.  No container may be open.  A string
that is still open is wrong inside a container and as the first value; after complete values, one
that a blank can continue is passed over. -/
def finish (r : Reader) : Except Stop (List Value) := do
  let r ← r.step 0x20
  if !r.frames.isEmpty then .error ⟨.malformed, r.values⟩
  else
    match r.scan with
    | .string _ _ => if r.values.isEmpty then .error ⟨.malformed, r.values⟩ else .ok r.values
    | _ => .ok r.values

end Reader

/-- The values of an input, and what is wrong with it after them. -/
structure Reading where
  values : List Value
  defect? : Option Defect

/-- Read an input. -/
def read (bytes : List UInt8) : Reading :=
  match ({ : Reader }.run bytes).bind Reader.finish with
  | .ok values => ⟨values.reverse, none⟩
  | .error stop => ⟨stop.values.reverse, some stop.defect⟩

/-- Read an input as far as these bytes.  Its end is somewhere behind them. -/
def readPart (bytes : List UInt8) : Reading :=
  match ({ : Reader }).run bytes with
  | .ok r => ⟨r.values.reverse, none⟩
  | .error stop => ⟨stop.values.reverse, some stop.defect⟩

end RecordSchema.Json
