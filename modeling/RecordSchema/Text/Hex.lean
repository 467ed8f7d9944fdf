/-!
# Hexadecimal strings

Binary data is written as pairs of hexadecimal digits.  The empty string is not taken for data.
-/

namespace RecordSchema.Hex

/-- The value of a hexadecimal digit in either case. -/
def digit? (c : Char) : Option Nat :=
  if '0' ≤ c ∧ c ≤ '9' then some (c.toNat - '0'.toNat)
  else if 'a' ≤ c ∧ c ≤ 'f' then some (c.toNat - 'a'.toNat + 10)
  else if 'A' ≤ c ∧ c ≤ 'F' then some (c.toNat - 'A'.toNat + 10)
  else none

/-- One hexadecimal digit. -/
def isDigit (c : Char) : Bool := (digit? c).isSome

/-- One pair of hexadecimal digits or more. -/
def isPairs : List Char → Bool
  | [a, b] => isDigit a && isDigit b
  | a :: b :: rest => isDigit a && isDigit b && isPairs rest
  | _ => false

/-- A string of hexadecimal digit pairs. -/
def isHex (s : String) : Bool := isPairs s.toList

/-- A digit below sixteen, in lower case. -/
def ofDigit (n : Nat) : Char := Nat.digitChar n

/-- A number in the given count of hexadecimal digits, its lowest ones if it has more. -/
def fixed (width n : Nat) : List Char :=
  match width with
  | 0 => []
  | width + 1 => fixed width (n / 16) ++ [ofDigit (n % 16)]

end RecordSchema.Hex
