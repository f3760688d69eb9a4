import Formula.Elementary.Fixed

/-!
# Powers

A power is the exponential of the exponent times the logarithm of the base. It is computed to 448 binary digits at
least and kept to 384. A power that is a double, or lies in the middle between two, is a number of 54 digits and comes
out exactly; any other is far enough from all of these to be rounded to the right side.

These functions stand for those of an array library, whose powers and square roots may differ in the last bit from one
build to another where they are not exact. No theorem uses a value that is not.
-/

namespace Formula.Elementary

/-- The binary places behind the point. -/
def powerPlaces : Nat := 512

/-- The logarithm of `num / den`, for a quotient from one to two, by the odd powers of
`(num - den) / (num + den)`. -/
def logarithmSeries (num den : Nat) : Int :=
  let root := ((num - den) <<< powerPlaces) / (num + den)
  let square := (root * root) >>> powerPlaces
  let next k term := ((term * square) >>> powerPlaces) * (2 * k + 1) / (2 * k + 3)
  2 * series false next powerPlaces 0 root

/-- The logarithm of two. -/
def logarithmOfTwo : Int := logarithmSeries 2 1

/-- The logarithm of a magnitude that is not zero. -/
def logarithm (x : Magnitude) : Int :=
  logarithmSeries x.significand (1 <<< x.significand.log2) + x.leading * logarithmOfTwo

/-- The double next to the exponential. -/
def exponential (n : Int) : Float :=
  let twos := n / logarithmOfTwo
  let rest := (n % logarithmOfTwo).toNat
  let next k term := ((term * rest) >>> powerPlaces) / (k + 1)
  let value := series false next powerPlaces 0 (1 <<< powerPlaces)
  (Magnitude.mk (halfEven value.toNat (1 <<< 128)) (twos + 128 - powerPlaces)).toFloat

/-- How a number stands to the whole numbers. -/
inductive Parity where
  | even
  | odd
  | fractional
deriving DecidableEq, Repr

/-- The parity of a number that is not infinite; an infinite one counts as even. -/
def parity (y : Float) : Parity :=
  if y.isInf then .even
  else
    let magnitude := Magnitude.ofFloat y
    if !magnitude.isWhole then .fractional else if magnitude.floor % 2 = 0 then .even else .odd

/-- The power of a base that is positive, finite and not one to a finite exponent. Beyond `2 ^ 64` every exponent takes
every such base out of the range of the doubles. -/
def finitePower (base : Float) (exponent : Float) : Float :=
  let ln := logarithm (Magnitude.ofFloat base)
  let factor := Magnitude.ofFloat exponent
  let grows := decide (0 < ln) != isNegative exponent
  let limit := 1 <<< (powerPlaces + 11)
  let size :=
    if 64 ≤ factor.leading then limit
    else units powerPlaces ⟨ln.natAbs * factor.significand, factor.exponent - powerPlaces⟩
  if limit ≤ size then (if grows then 1.0 / 0.0 else 0.0)
  else exponential (if grows then size else -size)

/-- The power of a base without its sign to an exponent that is not zero. -/
def unsignedPower (base exponent : Float) : Float :=
  let growing := if exponent < 0.0 then decide (base < 1.0) else decide (1.0 < base)
  if base == 1.0 then 1.0
  else if base == 0.0 || base.isInf || exponent.isInf then (if growing then 1.0 / 0.0 else 0.0)
  else finitePower base exponent

/-- The square root. Either zero is its own root, and no other number with its sign bit set has one. -/
def sqrt (x : Float) : Float :=
  if x == 0.0 then x
  else if x.isNaN || isNegative x then 0.0 / 0.0
  else unsignedPower x 0.5

/-- The power of two doubles. To the power zero every number gives one, and so does one to every power. The power one
half is the square root. A negative base needs a whole exponent, and the sign of the power is that of the base if the
exponent is odd. -/
def pow (base exponent : Float) : Float :=
  if exponent == 0.0 || base == 1.0 then 1.0
  else if base.isNaN || exponent.isNaN then 0.0 / 0.0
  else if exponent == 0.5 then sqrt base
  else if !isNegative base then unsignedPower base exponent
  else
    match parity exponent with
    | .even => unsignedPower base.abs exponent
    | .odd => -unsignedPower base.abs exponent
    | .fractional => if base < 0.0 && !base.isInf then 0.0 / 0.0 else unsignedPower base.abs exponent

end Formula.Elementary
