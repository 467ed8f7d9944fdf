/-!
# Doubles

A 64-bit binary floating-point number is kept as a sign and a magnitude, where the magnitude is
the number that its bits spell once the sign bit is taken off.  Those magnitudes count the
doubles from zero upwards — 0 is zero, 1 the smallest positive double, `infinityMagnitude` is
infinity — so comparing doubles is comparing integers, and NaN stands apart.
-/

namespace RecordSchema

/-- A double: not a number, or a sign and the place counted from zero. -/
inductive Double where
  | nan
  | number (negative : Bool) (magnitude : Nat)
deriving DecidableEq, Repr, Inhabited

namespace Double

/-- The bit that carries the sign. -/
def signBit : Nat := 0x8000000000000000

/-- The magnitude of infinity: eleven exponent bits set and no fraction bit. -/
def infinityMagnitude : Nat := 0x7ff0000000000000

/-- The double with the given sign and infinite magnitude. -/
def infinity (negative : Bool) : Double := .number negative infinityMagnitude

/-- The double that 64 bits spell; every spelling of NaN is the same `nan`. -/
def ofBits (bits : Nat) : Double :=
  let magnitude := bits % signBit
  if infinityMagnitude < magnitude then .nan
  else .number (decide (signBit ≤ bits)) magnitude

/-- The 64 bits of a double, or `none` for NaN, which has no single spelling. -/
def toBits? : Double → Option Nat
  | .nan => none
  | .number negative magnitude => some (cond negative signBit 0 + magnitude)

/-- The place on the number line, counted in doubles from zero.  The two zeros share it. -/
def place? : Double → Option Int
  | .nan => none
  | .number false magnitude => some magnitude
  | .number true magnitude => some (-magnitude)

/-- Numeric comparison; NaN is neither below nor above anything. -/
def lt (a b : Double) : Bool :=
  match a.place?, b.place? with
  | some x, some y => decide (x < y)
  | _, _ => false

/-- Numeric equality: the zeros agree and NaN differs from everything, itself included. -/
def eqv (a b : Double) : Bool :=
  match a.place?, b.place? with
  | some x, some y => decide (x = y)
  | _, _ => false

/-- The second argument if it is smaller, otherwise the first.  The order of the arguments shows
where neither is below the other: with NaN and with zeros of different sign. -/
def min (a b : Double) : Double := if b.lt a then b else a

/-- The second argument if it is larger, otherwise the first. -/
def max (a b : Double) : Double := if a.lt b then b else a

/-- The same double without its sign. -/
def abs : Double → Double
  | .nan => .nan
  | .number _ magnitude => .number false magnitude

/-- The largest finite number of the 32-bit format, which is a double as well. -/
def singleMax : Double := .number false 0x47efffffe0000000

/-- Some double below `hi` and above `lo` may need more than the 32-bit format: the larger of the
two bounds in absolute value exceeds `singleMax`. -/
def exceedsSingle (lo hi : Double) : Bool := singleMax.lt (max hi.abs lo.abs)

end Double

end RecordSchema
