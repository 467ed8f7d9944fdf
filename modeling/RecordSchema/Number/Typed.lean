import RecordSchema.Number.Decimal
import RecordSchema.Text.Blank
import RecordSchema.Text.Digit

/-!
# Numbers as they are typed

The numbers that a command line accepts.  Blanks may surround them, the digits may be those of any
script, and an underscore may stand between two digits.  Leading zeros are fine.
-/

namespace RecordSchema.Typed

/-- A digit of any script as the ASCII digit of the same value; other characters as they are. -/
def plainDigit (c : Char) : Char :=
  match Digit.value? c with
  | some value => Nat.digitChar value
  | none => c

/-- A text without its underscores, each of which has to stand between two digits. -/
def joinDigits : List Char → Option (List Char)
  | [] => some []
  | [c] => if c = '_' then none else some [c]
  | a :: b :: rest =>
    if a = '_' then none
    else if b = '_' then
      match rest with
      | [] => none
      | c :: more =>
        if a.isDigit && c.isDigit then (joinDigits (c :: more)).map (a :: ·) else none
    else (joinDigits (b :: rest)).map (a :: ·)

/-- A typed number in ASCII, without blanks around it and without underscores. -/
def normalize? (s : String) : Option (List Char) :=
  joinDigits ((Blank.trim s.toList).map plainDigit)

/-- An optional sign, and what follows it. -/
def splitSign : List Char → Bool × List Char
  | '-' :: rest => (true, rest)
  | '+' :: rest => (false, rest)
  | rest => (false, rest)

/-- The value of ASCII digits. -/
def digitValues (cs : List Char) : List Nat := cs.map fun c => c.toNat - '0'.toNat

/-- The number that ASCII digits spell, if they are all digits and at least one. -/
def natural? (cs : List Char) : Option Nat :=
  if cs.isEmpty || !cs.all Char.isDigit then none
  else some ((digitValues cs).foldl (fun value digit => 10 * value + digit) 0)

/-- The integer that a text spells. -/
def integer? (s : String) : Option Int := do
  let (negative, digits) := splitSign (← normalize? s)
  let value ← natural? digits
  return if negative then -value else value

/-- The power of ten at the end of a number: none, or `e` in either case and an integer. -/
def power? : List Char → Option Int
  | [] => some 0
  | c :: cs => do
    if c ≠ 'e' ∧ c ≠ 'E' then none
    let (negative, digits) := splitSign cs
    let value ← natural? digits
    return if negative then -value else value

/-- The double that a text without a sign spells: infinity or NaN by name in either case, or
digits with an optional point and an optional power of ten. -/
def unsigned? (negative : Bool) (cs : List Char) : Option Double :=
  let name := cs.map Char.toLower
  if name = "inf".toList ∨ name = "infinity".toList then some (.infinity negative)
  else if name = "nan".toList then some .nan
  else do
    let whole := cs.takeWhile Char.isDigit
    let (fraction, rest) :=
      match cs.dropWhile Char.isDigit with
      | '.' :: more => (more.takeWhile Char.isDigit, more.dropWhile Char.isDigit)
      | more => ([], more)
    if whole.isEmpty && fraction.isEmpty then none
    let power ← power? rest
    (Decimal.ofDigits negative (digitValues whole) (digitValues fraction) power).toDouble?

/-- The double that a text spells. -/
def double? (s : String) : Option Double := do
  let (negative, rest) := splitSign (← normalize? s)
  unsigned? negative rest

end RecordSchema.Typed
