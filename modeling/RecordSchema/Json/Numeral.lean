import RecordSchema.Value

/-!
# Numerals

A number is read byte by byte.  It starts with a digit or a minus sign; what may follow depends on
the part that was reached.  The longest form counts, a part that lacks its digits is broken, and a
number without a point and without a power of ten is an integer.  There may be any number of digits;
only powers of ten have bounds.
-/

namespace RecordSchema.Json

/-- The part of a number that has been reached. -/
inductive NumeralPart where
  /-- After the minus sign; a digit has to follow. -/
  | minus
  /-- After a leading zero, which no digit may follow. -/
  | zero
  /-- Within the digits before the point. -/
  | whole
  /-- After the point; a digit has to follow. -/
  | point
  /-- Within the digits after the point. -/
  | fraction
  /-- After the mark of the power; a sign or a digit has to follow. -/
  | mark
  /-- After the sign of the power; a digit has to follow. -/
  | powerSign
  /-- Within the digits of the power. -/
  | power
deriving DecidableEq, Repr

/-- A number as far as it has been read. -/
structure Numeral where
  part : NumeralPart
  negative : Bool := false
  /-- All digits before the power, as one number. -/
  coefficient : Nat := 0
  /-- How many of them stand after the point. -/
  places : Nat := 0
  powerNegative : Bool := false
  power : Nat := 0
deriving DecidableEq, Repr

/-- What a byte means for the number being read. -/
inductive NumeralStep where
  /-- It belongs to the number. -/
  | more (numeral : Numeral)
  /-- The number is complete before it. -/
  | complete
  /-- The number lacks a digit here. -/
  | broken

namespace Numeral

/-- The value of an ASCII digit. -/
def digit? (b : UInt8) : Option Nat :=
  if 0x30 ≤ b ∧ b ≤ 0x39 then some (b.toNat - 0x30) else none

/-- The number that one byte starts, if it starts one. -/
def start? (b : UInt8) : Option Numeral :=
  if b = 0x2d then some { part := .minus, negative := true }
  else
    match digit? b with
    | some 0 => some { part := .zero }
    | some d => some { part := .whole, coefficient := d }
    | none => none

/-- The number with one more digit before the power. -/
def addDigit (n : Numeral) (part : NumeralPart) (d : Nat) : Numeral :=
  { n with part, coefficient := 10 * n.coefficient + d }

/-- The number with one more digit of the power. -/
def addPowerDigit (n : Numeral) (d : Nat) : Numeral :=
  { n with part := .power, power := 10 * n.power + d }

/-- What may follow the digits before the power: the power, or the end of the number. -/
def orPower (n : Numeral) (b : UInt8) : NumeralStep :=
  if b = 0x65 ∨ b = 0x45 then .more { n with part := .mark } else .complete

/-- What may follow the digits before the point. -/
def orPoint (n : Numeral) (b : UInt8) : NumeralStep :=
  if b = 0x2e then .more { n with part := .point } else n.orPower b

/-- What the next byte means. -/
def step (n : Numeral) (b : UInt8) : NumeralStep :=
  match n.part, digit? b with
  | .minus, some 0 => .more { n with part := .zero }
  | .minus, some d => .more (n.addDigit .whole d)
  | .zero, _ => n.orPoint b
  | .whole, some d => .more (n.addDigit .whole d)
  | .whole, none => n.orPoint b
  | .point, some d => .more { n.addDigit .fraction d with places := n.places + 1 }
  | .fraction, some d => .more { n.addDigit .fraction d with places := n.places + 1 }
  | .fraction, none => n.orPower b
  | .mark, some d => .more (n.addPowerDigit d)
  | .mark, none =>
    if b = 0x2b then .more { n with part := .powerSign }
    else if b = 0x2d then .more { n with part := .powerSign, powerNegative := true }
    else .broken
  | .powerSign, some d => .more (n.addPowerDigit d)
  | .power, some d => .more (n.addPowerDigit d)
  | .power, none => .complete
  | .minus, none | .point, none | .powerSign, none => .broken

/-- The greatest power of ten that the first digit of a decimal may stand for. -/
def maxPower : Int := 999999999999999999

/-- The least power of ten that the last digit of a decimal may stand for. -/
def minPower : Int := -1999999999999999997

/-- The value of a complete number, or `none` for a decimal whose powers are out of bounds. -/
def value? (n : Numeral) : Option Value :=
  match n.part with
  | .minus | .zero | .whole =>
    some (.integer (if n.negative then -n.coefficient else n.coefficient))
  | _ =>
    let written : Int := if n.powerNegative then -n.power else n.power
    let exponent := written - n.places
    if Decimal.adjusted n.coefficient exponent ≤ maxPower ∧ minPower ≤ exponent then
      some (.decimal (.finite n.negative n.coefficient exponent))
    else none

end Numeral

end RecordSchema.Json
