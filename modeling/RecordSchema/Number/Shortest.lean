import RecordSchema.Number.Decimal

/-!
# The shortest text of a double

A double is written with the fewest digits that read back as the same double; of two texts with
so few digits, the one nearer to the double counts.  Numbers from `0.0001` up to sixteen digits
before the point are written positionally, others with a power of ten.
-/

namespace RecordSchema.Double

/-- The exact value of a finite magnitude, as a number of units of the smallest positive double.
The inverse of counting doubles: through the first two binades the count is the value, and each
further one has twice the spacing. -/
def unitsOfMagnitude (magnitude : Nat) : Nat :=
  let exponent := magnitude / binade
  if exponent = 0 then magnitude
  else (binade + magnitude % binade) * Nat.pow 2 (exponent - 1)

/-- The power of ten of the first digit of a positive quotient. -/
def leadingPower (num den : Nat) : Int :=
  if den ≤ num then (decimalDigits (num / den)).length - 1
  else
    let places := (decimalDigits (den / num)).length - 1
    if num * Nat.pow 10 places = den then -places else -places - 1

/-- The quotient `num / den` in units of a power of ten, as a quotient again. -/
def inUnits (num den : Nat) (power : Int) : Nat × Nat :=
  if 0 ≤ power then (num, den * Nat.pow 10 power.toNat)
  else (num * Nat.pow 10 (-power).toNat, den)

/-- The magnitude nearest to a number of units of a power of ten. -/
def magnitudeOfDecimal (digits : Nat) (power : Int) : Nat :=
  if 0 ≤ power then magnitudeOfRatio (digits * Nat.pow 10 power.toNat) 1
  else magnitudeOfRatio digits (Nat.pow 10 (-power).toNat)

/-- The nearer one of the two multiples of a power of ten around a magnitude that reads back as
it, if one does. -/
def onGrid? (magnitude : Nat) (power : Int) : Option Nat :=
  let (num, den) := inUnits (unitsOfMagnitude magnitude) unitsInOne power
  let nearest := roundHalfEven num den
  let other := if nearest = num / den then nearest + 1 else num / den
  [nearest, other].find? fun digits => magnitudeOfDecimal digits power = magnitude

/-- The digits and the power of ten of the shortest decimal that reads back as a positive
magnitude.  The grids are tried from one digit on; seventeen digits tell all doubles apart. -/
def shortestDecimal (magnitude : Nat) : Nat × Int :=
  let leading := leadingPower (unitsOfMagnitude magnitude) unitsInOne
  let attempt := fun (count : Nat) =>
    let power := leading - count
    (onGrid? magnitude power).map fun digits => (digits, power)
  ((List.range 17).findSome? attempt).getD (0, 0)

/-- Digits without the zeros at their end, and the power of ten that makes up for them. -/
def dropZeros (digits : List Char) (power : Int) : List Char × Int :=
  let zeros := (digits.reverse.takeWhile (· = '0')).length
  (digits.take (digits.length - zeros), power + zeros)

/-- A positive number written positionally, with at least one digit on either side of the
point. -/
def positionalText (digits : List Char) (power : Int) : List Char :=
  if 0 ≤ power then digits ++ List.replicate power.toNat '0' ++ ['.', '0']
  else Decimal.plainText digits (-power).toNat

/-- A positive number written with a power of ten of two digits or more. -/
def powerText (digits : List Char) (leading : Int) : List Char :=
  let significand := match digits with
    | d :: e :: rest => d :: '.' :: e :: rest
    | digits => digits
  let sign := if leading < 0 then '-' else '+'
  let number := decimalDigits leading.natAbs
  significand ++ 'e' :: sign :: (List.replicate (2 - number.length) '0' ++ number)

/-- The text of a magnitude. -/
def magnitudeText (magnitude : Nat) : List Char :=
  if magnitude = 0 then ['0', '.', '0']
  else if magnitude = infinityMagnitude then "inf".toList
  else
    let (value, power) := shortestDecimal magnitude
    let (digits, power) := dropZeros (decimalDigits value) power
    let leading := power + digits.length - 1
    if -4 ≤ leading ∧ leading < 16 then positionalText digits power
    else powerText digits leading

/-- The text of a double. -/
def text : Double → String
  | .nan => "nan"
  | .number negative magnitude =>
    String.ofList (if negative then '-' :: magnitudeText magnitude else magnitudeText magnitude)

end RecordSchema.Double
