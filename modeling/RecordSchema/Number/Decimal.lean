import RecordSchema.Number.Rounding

/-!
# Decimal numbers

A decimal number keeps the digits it was written with: `2.50` and `2.5` are the same number but
not the same decimal.  Its text uses plain notation while the point falls within or closely
before the digits, and scientific notation otherwise.
-/

namespace RecordSchema

/-- A decimal number: sign, coefficient and power of ten, or one of the special values. -/
inductive Decimal where
  | finite (negative : Bool) (coefficient : Nat) (exponent : Int)
  | infinite (negative : Bool)
  | quietNaN
  | signalingNaN
deriving DecidableEq, Repr, Inhabited

/-- The decimal digits of a number, most significant first; zero has the one digit `0`. -/
def decimalDigits (n : Nat) : List Char := Nat.toDigits 10 n

namespace Decimal

/-- The exponent that the first digit of the coefficient carries. -/
def adjusted (coefficient : Nat) (exponent : Int) : Int :=
  exponent + (decimalDigits coefficient).length - 1

/-- The decimal written as digits, a point, further digits and a power of ten. -/
def ofDigits (negative : Bool) (whole fraction : List Nat) (exponent : Int) : Decimal :=
  .finite negative ((whole ++ fraction).foldl (fun value digit => 10 * value + digit) 0)
    (exponent - fraction.length)

/-- Digits with the point `places` digits from their end. -/
def plainText (digits : List Char) (places : Nat) : List Char :=
  if places = 0 then digits
  else if places < digits.length then
    digits.take (digits.length - places) ++ '.' :: digits.drop (digits.length - places)
  else '0' :: '.' :: (List.replicate (places - digits.length) '0' ++ digits)

/-- One digit, a point before the others if there are any, and the signed power of ten. -/
def scientificText (digits : List Char) (power : Int) : List Char :=
  let significand := match digits with
    | [] => []
    | [d] => [d]
    | d :: ds => d :: '.' :: ds
  let sign := if power < 0 then '-' else '+'
  significand ++ 'E' :: sign :: decimalDigits power.natAbs

/-- The text of a decimal: plain while no power of ten is added and at most five zeros stand
between the point and the first digit, scientific otherwise. -/
def text : Decimal → String
  | .finite negative coefficient exponent =>
    let digits := decimalDigits coefficient
    let power := adjusted coefficient exponent
    let body :=
      if exponent ≤ 0 ∧ -6 ≤ power then plainText digits (-exponent).toNat
      else scientificText digits power
    String.ofList (if negative then '-' :: body else body)
  | .infinite negative => if negative then "-Infinity" else "Infinity"
  | .quietNaN => "NaN"
  | .signalingNaN => "sNaN"

/-- The nearest double, or `none` for a signaling NaN, which refuses conversion.  A first digit
beyond `10 ^ 400` or before `10 ^ -400` settles the answer without writing the power of ten out. -/
def toDouble? : Decimal → Option Double
  | .finite negative coefficient exponent =>
    let power := adjusted coefficient exponent
    if coefficient = 0 ∨ power < -400 then some (.number negative 0)
    else if 400 < power then some (.infinity negative)
    else if 0 ≤ exponent then
      some (.number negative (Double.magnitudeOfRatio (coefficient * Nat.pow 10 exponent.toNat) 1))
    else some (.number negative (Double.magnitudeOfRatio coefficient (Nat.pow 10 (-exponent).toNat)))
  | .infinite negative => some (.infinity negative)
  | .quietNaN => some .nan
  | .signalingNaN => none

end Decimal

end RecordSchema
