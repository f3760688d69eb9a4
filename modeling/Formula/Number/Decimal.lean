import Formula.Number.Magnitude

/-!
# Decimals

A decimal is a natural number times a power of ten. A magnitude has two decimals: the one rounded to a number of
significant digits (`Magnitude.rounded`), and the shortest one that still reads back as the same double
(`Magnitude.shortest`). How a decimal is written is settled by a layout (`Layout.write`).
-/

namespace Formula

/-- `digits * 10 ^ exponent`. -/
structure Decimal where
  digits : Nat
  exponent : Int
deriving DecidableEq, Repr

/-- The digits of a natural number in base ten. -/
def decimalDigits (n : Nat) : List Char := Nat.toDigits 10 n

/-- The same decimal without zeros at the end of its digits. -/
def Decimal.stripped (d : Decimal) : Decimal :=
  if h : d.digits ≠ 0 ∧ d.digits % 10 = 0 then
    Decimal.stripped ⟨d.digits / 10, d.exponent + 1⟩
  else d
termination_by d.digits
decreasing_by exact Nat.div_lt_self (Nat.pos_of_ne_zero h.1) (by decide)

namespace Magnitude

/-- The least `k` with `x < 10 ^ k`, for a magnitude that is not zero. -/
def decimalWidth (x : Magnitude) : Int :=
  let (num, den) := x.inUnits 0
  if den ≤ num then (decimalDigits (num / den)).length
  else 1 - (decimalDigits ((den - 1) / num)).length

/-- The decimal of so many significant digits next to the magnitude, a tie going to the even one. -/
def rounded (count : Nat) (x : Magnitude) : Decimal :=
  if x.significand = 0 then ⟨0, 0⟩
  else
    let place := x.decimalWidth - count
    let (num, den) := x.inUnits place
    Decimal.stripped ⟨halfEven num den, place⟩

/-- The multiple of `10 ^ place` next to the magnitude among those that read back as the same double. The numbers that
do so reach half a unit of the last binary place up and down, but only a quarter of one down from a power of two; the
ends belong to them if the significand is even. -/
def readsBackAt (x : Magnitude) (place : Int) : Option Nat :=
  let (num, den) := x.inUnits place
  let unit := num / x.significand
  let reach := if x.significand = leadingUnit ∧ -1074 < x.exponent then unit else 2 * unit
  let slack := if x.significand % 2 = 0 then 1 else 0
  let below := num / den
  let rest := num % den
  let down := 4 * rest < reach + slack
  let up := 4 * (den - rest) < 2 * unit + slack
  if down ∧ (up → 2 * rest < den ∨ 2 * rest = den ∧ below % 2 = 0) then some below
  else if up then some (below + 1)
  else none

/-- The decimal of fewest digits that reads back as the same double, and of those the one next to it. Seventeen digits
always suffice; the exact decimal stands behind them. -/
def shortest (x : Magnitude) : Decimal :=
  if x.significand = 0 then ⟨0, 0⟩
  else
    let width := x.decimalWidth
    let found := (List.range 17).findSome? fun (n : Nat) =>
      let place := width - 1 - n
      (x.readsBackAt place).map fun digits => Decimal.mk digits place
    let exact : Decimal :=
      ⟨(x.significand * Nat.pow 5 (-x.exponent).toNat) <<< x.exponent.toNat, min x.exponent 0⟩
    (found.getD exact).stripped

end Magnitude

/-- How a number is written: which digits, from which power of ten on with an exponent, and whether a whole number shows
a fraction of zero. -/
structure Layout where
  /-- The decimal that stands for a magnitude. -/
  choose : Magnitude → Decimal
  /-- Numbers from `0.0001` up to below this power of ten are written without an exponent. -/
  plainBelow : Int
  /-- A whole number ends in `.0`. -/
  showsFraction : Bool

namespace Layout

/-- Digits with the point after so many of them. -/
def positional (layout : Layout) (digits : List Char) (point : Int) : List Char :=
  if point ≤ 0 then '0' :: '.' :: List.replicate (-point).toNat '0' ++ digits
  else if point < digits.length then digits.take point.toNat ++ '.' :: digits.drop point.toNat
  else
    digits ++ List.replicate (point.toNat - digits.length) '0' ++ (if layout.showsFraction then ['.', '0'] else [])

/-- An exponent has a sign and at least two digits. -/
def exponentText (exponent : Int) : List Char :=
  let digits := decimalDigits exponent.natAbs
  'e' :: (if exponent < 0 then '-' else '+') :: (if digits.length < 2 then '0' :: digits else digits)

/-- One digit before the point and the others behind it. -/
def scientific (digits : List Char) (exponent : Int) : List Char :=
  match digits with
  | [] => []
  | [d] => d :: exponentText exponent
  | d :: rest => d :: '.' :: rest ++ exponentText exponent

/-- The text of a decimal. -/
def write (layout : Layout) (d : Decimal) : List Char :=
  let digits := decimalDigits d.digits
  let exponent := d.exponent + digits.length - 1
  if -4 ≤ exponent ∧ exponent < layout.plainBelow then layout.positional digits (exponent + 1)
  else scientific digits exponent

/-- The text of a double. A zero keeps its sign, a number that is none has none. -/
def render (layout : Layout) (x : Float) : String :=
  if x.isNaN then "nan"
  else
    let text := if x.isInf then ['i', 'n', 'f'] else layout.write (layout.choose (Magnitude.ofFloat x))
    String.ofList (if isNegative x then '-' :: text else text)

end Layout

/-- Numbers in messages and names: the shortest digits, positional below `10 ^ 16`, always with a fraction. -/
def plainLayout : Layout where
  choose := Magnitude.shortest
  plainBelow := 16
  showsFraction := true

/-- The text of a number that reads back as the same number. -/
def numberText (x : Float) : String := plainLayout.render x

end Formula
