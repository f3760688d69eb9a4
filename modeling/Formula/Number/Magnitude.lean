/-!
# Magnitudes

A magnitude is a natural number times a power of two. The absolute value of every finite double is one
(`Magnitude.ofFloat`), and `Magnitude.toFloat` gives the double next to any magnitude, a tie going to the even one.
All conversions between numbers and texts and all elementary functions work on magnitudes, in exact arithmetic.
-/

namespace Formula

/-- The quotient rounded to the nearest natural number, a tie going to the even one. -/
def halfEven (num den : Nat) : Nat :=
  let quotient := num / den
  let twice := 2 * (num % den)
  if twice < den then quotient
  else if den < twice then quotient + 1
  else quotient + quotient % 2

/-- `significand * 2 ^ exponent`. -/
structure Magnitude where
  significand : Nat
  exponent : Int
deriving DecidableEq, Repr

/-- The sign bit is set. -/
def isNegative (x : Float) : Bool := x.toBits.toNat.testBit 63

namespace Magnitude

/-- The leading digit of a significand, which a double only stores by an exponent field that is not zero. -/
def leadingUnit : Nat := 1 <<< 52

/-- The absolute value of a finite double. -/
def ofFloat (x : Float) : Magnitude :=
  let bits : Nat := x.toBits.toNat
  let field : Nat := bits / leadingUnit % 2048
  let fraction : Nat := bits % leadingUnit
  if field = 0 then ⟨fraction, -1074⟩ else ⟨leadingUnit + fraction, (field : Int) - 1075⟩

/-- The binary exponent of the leading digit, for a magnitude that is not zero. -/
def leading (x : Magnitude) : Int := x.exponent + x.significand.log2

/-- The nearest double, a tie going to the one with an even significand. Beyond the largest double this is infinity.
The bits of a double count the doubles below it, so that a significand rounded up to the next power of two carries into
the exponent by itself. -/
def toFloat (x : Magnitude) : Float :=
  if x.significand = 0 then 0.0
  else
    let last := max (x.leading - 52) (-1074)
    let units :=
      if last ≤ x.exponent then x.significand <<< (x.exponent - last).toNat
      else halfEven x.significand (1 <<< (last - x.exponent).toNat)
    let bits := (last + 1074).toNat * leadingUnit + units
    Float.ofBits (UInt64.ofNat (min bits 0x7FF0000000000000))

/-- The magnitude in units of `10 ^ place`, as a numerator and a denominator. -/
def inUnits (x : Magnitude) (place : Int) : Nat × Nat :=
  ((x.significand * Nat.pow 10 (-place).toNat) <<< x.exponent.toNat, Nat.pow 10 place.toNat <<< (-x.exponent).toNat)

/-- The part before the binary point. -/
def floor (x : Magnitude) : Nat := (x.inUnits 0).1 / (x.inUnits 0).2

/-- Nothing stands behind the binary point. -/
def isWhole (x : Magnitude) : Bool := (x.inUnits 0).1 % (x.inUnits 0).2 == 0

end Magnitude

/-- The double with the magnitude of `x` and the sign of `sign`. -/
def withSignOf (sign x : Float) : Float :=
  if isNegative sign then -x.abs else x.abs

/-- The whole number next to a finite double on the side of zero. -/
def truncated (x : Float) : Int :=
  let whole := (Magnitude.ofFloat x).floor
  if isNegative x then -(whole : Int) else whole

/-- A finite double without a fraction. -/
def isWhole (x : Float) : Bool := x.isFinite && (Magnitude.ofFloat x).isWhole

/-- A whole number is less than a double, both taken exactly. A fraction counts only where it was cut off downwards. -/
def isBelow (n : Int) (x : Float) : Bool :=
  if x.isNaN then false
  else if x.isInf then !isNegative x
  else n < truncated x || (n == truncated x && !isWhole x && !isNegative x)

end Formula
