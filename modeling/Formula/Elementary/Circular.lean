import Formula.Elementary.Fixed

/-!
# Sine, cosine, tangent and their inverses

The angle is taken modulo a quarter turn. For a large angle the circle constant is computed to as many more digits as
the angle has before its point, so that nothing is lost in the remainder.

These functions stand for those of an array library, which may differ in the last bit from one build to another. No
theorem uses a value of theirs.
-/

namespace Formula.Elementary

/-- Sine and cosine of an angle below a quarter turn. -/
def sineCosine (places angle : Nat) : Int × Int :=
  let square := (angle * angle) >>> places
  let next (least : Nat) k term := ((term * square) >>> places) / ((2 * k + least) * (2 * k + least + 1))
  (series true (next 2) places 0 angle, series true (next 1) places 0 (1 <<< places))

/-- Sine and cosine of a magnitude, in units of `2 ^ -places`. -/
def circular (places : Nat) (x : Magnitude) : Int × Int :=
  let working := places + x.leading.toNat + 8
  let quarter := (halfPi working).toNat
  let angle := units working x
  let (sine, cosine) := sineCosine places ((angle % quarter) >>> (working - places))
  match angle / quarter % 4 with
  | 0 => (sine, cosine)
  | 1 => (cosine, -sine)
  | 2 => (-sine, -cosine)
  | _ => (-cosine, sine)

/-- An odd function from its values in units of `2 ^ -places` at positive arguments. A zero is its own image. -/
def oddFunction (image : Nat → Magnitude → Int) (x : Float) : Float :=
  if !x.isFinite then 0.0 / 0.0
  else if x == 0.0 then x
  else
    let magnitude := Magnitude.ofFloat x
    let places := placesFor magnitude
    let value := image places magnitude
    rounded places (if isNegative x then -value else value)

def sin : Float → Float := oddFunction fun places x => (circular places x).1

def cos (x : Float) : Float :=
  if !x.isFinite then 0.0 / 0.0
  else if x == 0.0 then 1.0
  else
    let magnitude := Magnitude.ofFloat x
    let places := placesFor magnitude
    rounded places (circular places magnitude).2

def tan : Float → Float := oddFunction fun places x =>
  let (sine, cosine) := circular places x
  sine * (1 <<< places : Nat) / cosine

/-- The other side of a right triangle whose long side is one. -/
def otherSide (places side : Nat) : Nat := squareRoot (1 <<< (2 * places) - side * side)

def asin (x : Float) : Float :=
  if 1.0 < x.abs then 0.0 / 0.0
  else
    oddFunction (fun places x => let side := units places x; arcTangent places side (otherSide places side)) x

def acos (x : Float) : Float :=
  if 1.0 < x.abs || x.isNaN then 0.0 / 0.0
  else
    let magnitude := Magnitude.ofFloat x
    let places := placesFor magnitude
    let side := units places magnitude
    let angle := arcTangent places (otherSide places side) side
    rounded places (if isNegative x then 2 * halfPi places - angle else angle)

def atan (x : Float) : Float :=
  if x.isInf then withSignOf x (rounded 320 (halfPi 320))
  else oddFunction (fun places x => arcTangent places (x.inUnits 0).1 (x.inUnits 0).2) x

end Formula.Elementary
