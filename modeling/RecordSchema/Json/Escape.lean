import RecordSchema.Text.Utf8
import RecordSchema.Text.Hex

/-!
# String escapes

Between its quotes a string holds bytes and escapes.  Writing the escapes out gives the bytes of
the string, which are then decoded.  The four digits after `\u` are a UTF-16 unit: a unit that
opens a surrogate pair takes the next one with it, whatever that is, and becomes a question mark
if none follows at once.
-/

namespace RecordSchema.Json

/-- The backslash. -/
abbrev backslash : UInt8 := 0x5c

/-- The letter `u` after a backslash. -/
abbrev letterU : UInt8 := 0x75

/-- The value of a hexadecimal digit. -/
def hexDigit? (b : UInt8) : Option Nat := Hex.digit? (Char.ofNat b.toNat)

/-- The number that four hexadecimal digits spell. -/
def unitOf (a b c d : UInt8) : Nat :=
  [a, b, c, d].foldl (fun n digit => 16 * n + (hexDigit? digit).getD 0) 0

/-- A unit that opens a surrogate pair. -/
def opensPair (unit : Nat) : Bool := decide (0xd800 ≤ unit) && decide (unit < 0xdc00)

/-- The number of a pair: ten bits of each unit, above the first plane. -/
def pairOf (high low : Nat) : Nat := 0x10000 + high % 0x400 * 0x400 + low % 0x400

/-- The control character that a letter after a backslash stands for; all other characters stand
for themselves. -/
def letterEscape (b : UInt8) : UInt8 :=
  if b = 0x62 then 0x08
  else if b = 0x66 then 0x0c
  else if b = 0x6e then 0x0a
  else if b = 0x72 then 0x0d
  else if b = 0x74 then 0x09
  else b

/-- A letter that may follow a backslash, other than `u`. -/
def isLetterEscape (b : UInt8) : Bool :=
  [0x22, 0x5c, 0x2f, 0x62, 0x66, 0x6e, 0x72, 0x74].contains b

/-- What stands between the quotes of a string: a byte, or a unit written by its digits. -/
inductive Piece where
  | byte (b : UInt8)
  | unit (n : Nat)
deriving DecidableEq, Repr

/-- Read bytes and escapes, onto the pieces found so far, the last one first.  A reader that
checks the form of escapes leaves no cut-off one; if there is one, it yields nothing. -/
def piecesOnto (found : List Piece) : List UInt8 → List Piece
  | x :: y :: rest =>
    if x = backslash then
      if y = letterU then
        match rest with
        | a :: b :: c :: d :: rest => piecesOnto (.unit (unitOf a b c d) :: found) rest
        | _ => found.reverse
      else piecesOnto (.byte (letterEscape y) :: found) rest
    else piecesOnto (.byte x :: found) (y :: rest)
  | [x] => (.byte x :: found).reverse
  | [] => found.reverse

/-- The pieces between the quotes of a string. -/
def pieces (raw : List UInt8) : List Piece := piecesOnto [] raw

/-- The byte for a unit that should open a pair and does not. -/
abbrev questionMark : UInt8 := 0x3f

/-- Bytes being written, the last one first, and a unit that waits for the second of its pair. -/
structure Writing where
  found : List UInt8 := []
  pending? : Option Nat := none

namespace Writing

/-- Write one more piece. -/
def add (w : Writing) (piece : Piece) : Writing :=
  match w.pending?, piece with
  | some high, .unit low => ⟨(Utf8.encode (pairOf high low)).reverse ++ w.found, none⟩
  | some _, .byte b => ⟨b :: questionMark :: w.found, none⟩
  | none, .unit n =>
    if opensPair n then ⟨w.found, some n⟩ else ⟨(Utf8.encode n).reverse ++ w.found, none⟩
  | none, .byte b => ⟨b :: w.found, none⟩

/-- All the bytes, in order. -/
def bytes (w : Writing) : List UInt8 :=
  match w.pending? with
  | some _ => (questionMark :: w.found).reverse
  | none => w.found.reverse

end Writing

/-- The bytes of a string with its escapes written out. -/
def writeOut (pieces : List Piece) : List UInt8 := (pieces.foldl Writing.add {}).bytes

/-- The text of a string, from what stands between its quotes. -/
def stringText (raw : List UInt8) : Except Utf8.Fault String :=
  Utf8.decode (writeOut (pieces raw))

end RecordSchema.Json
