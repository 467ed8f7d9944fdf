import RecordSchema.Number.Double

/-!
# Rounding to the nearest double

An exact quotient of natural numbers is rounded to the nearest double, ties to the even
neighbour, in plain integer arithmetic.  Because magnitudes count the doubles, no case is made
for subnormal numbers, for a carry into the next power of two, or for overflow: the count simply
goes on, and it is capped at infinity.
-/

namespace RecordSchema

/-- The integer nearest to `num / den`; a half goes to the even neighbour. -/
def roundHalfEven (num den : Nat) : Nat :=
  let quotient := num / den
  let rest := num % den
  if den < 2 * rest ∨ (2 * rest = den ∧ quotient % 2 = 1) then quotient + 1 else quotient

namespace Double

/-- The number one in units of the smallest positive double. -/
def unitsInOne : Nat := Nat.pow 2 1074

/-- How many doubles there are from one power of two up to the next: 53 digits, the first of
which is fixed. -/
def binade : Nat := 0x10000000000000

/-- The magnitude of the double nearest to `num / den`.

Counted in units of the smallest positive double, the quotient has so many binary digits; those
beyond the first 53 are its `shift`.  With the grid spaced by `2 ^ shift` units, the rounded
quotient is a 53-digit significand, and each further `shift` is one more binade. -/
def magnitudeOfRatio (num den : Nat) : Nat :=
  let scaled := num * unitsInOne
  let shift := (scaled / den).log2 - 52
  Nat.min infinityMagnitude (shift * binade + roundHalfEven scaled (den * Nat.pow 2 shift))

/-- The double nearest to an integer. -/
def ofInt (n : Int) : Double := .number (decide (n < 0)) (magnitudeOfRatio n.natAbs 1)

end Double

end RecordSchema
