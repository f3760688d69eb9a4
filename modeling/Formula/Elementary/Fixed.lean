import Formula.Number.Magnitude

/-!
# Fixed-point arithmetic

The elementary functions are computed on natural numbers that count units of `2 ^ -places`. Each of them is computed to
hundreds of binary places behind the leading digit of its result and then rounded once. Its values at doubles are never
that close to the middle between two doubles, unless they lie on it, so the result is the double next to the true value.

Arrays of numbers have elementary functions of their own, and the last bit of what these return depends on how the array
library was built; a result may lie one double away from the one that is computed here. What is proved of formulas holds
for whatever functions a registry has, and uses no value of these.
-/

namespace Formula.Elementary

/-- The places behind the point that show a magnitude to 320 binary digits at least. -/
def placesFor (x : Magnitude) : Nat := 320 + (-x.leading).toNat

/-- A magnitude in units of `2 ^ -places`. -/
def units (places : Nat) (x : Magnitude) : Nat :=
  let shift := x.exponent + places
  if 0 ≤ shift then x.significand <<< shift.toNat else x.significand >>> (-shift).toNat

/-- The double next to so many units, with their sign. -/
def rounded (places : Nat) (n : Int) : Float :=
  let magnitude := (Magnitude.mk n.natAbs (-places)).toFloat
  if n < 0 then -magnitude else magnitude

/-- The sum of at most `count` terms up to the first that vanishes. `next k` takes the size of term `k` to that of the
one after it; the signs alternate or are all the same. -/
def series (alternating : Bool) (next : Nat → Nat → Nat) : (count k term : Nat) → Int
  | 0, _, _ => 0
  | count + 1, k, term =>
    if term = 0 then 0
    else
      let rest := series alternating next count (k + 1) (next k term)
      if alternating then term - rest else term + rest

/-- Newton's descent to the square root, from an estimate that is not below it. -/
def rootFrom (n estimate : Nat) : Nat :=
  let better := (estimate + n / estimate) / 2
  if better < estimate then rootFrom n better else estimate
termination_by estimate

/-- The whole part of the square root. -/
def squareRoot (n : Nat) : Nat := rootFrom n (1 <<< (n.log2 / 2 + 1))

/-- The arc tangent of `num / den`, for a quotient of at most one. With `q` the quotient, the terms are those of
`q / (1 + q ^ 2) * (1 + 2/3 z + 2/3 * 4/5 z ^ 2 + ...)` for `z = q ^ 2 / (1 + q ^ 2)`, which is one half at most. -/
def arcTangentSeries (places num den : Nat) : Int :=
  let squares := num * num + den * den
  let ratio := ((num * num) <<< places) / squares
  let next k term := ((term * ratio) >>> places) * (2 * k + 2) / (2 * k + 3)
  series false next (places + 64) 0 (((num * den) <<< places) / squares)

/-- Half the circle constant, from the arc tangents of a fifth and of a 239th. -/
def halfPi (places : Nat) : Int :=
  (8 * arcTangentSeries (places + 8) 1 5 - 2 * arcTangentSeries (places + 8) 1 239) / 256

/-- The arc tangent of `num / den`; the denominator may be zero, and not both. -/
def arcTangent (places num den : Nat) : Int :=
  if num ≤ den then arcTangentSeries places num den else halfPi places - arcTangentSeries places den num

end Formula.Elementary
