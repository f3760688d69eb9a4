import Formula.Number.Magnitude
import Formula.Text.Blank
import Formula.Text.Digit

/-!
# Reading numerals

The text of a number: an optional sign, digits of any script with at most one point among them, and an optional
exponent. Single underscores may group the digits, and blanks may surround the whole. The words for infinity and for
the number that is none are read in any case. A whole number has neither a point nor an exponent, and not too many
digits.
-/

namespace Formula.Numeral

open Formula.Text

/-- A blank that may surround a numeral. The information separators may not. -/
def isMargin (c : Char) : Bool := isBlank c && !(decide (0x1C ≤ c.toNat ∧ c.toNat ≤ 0x1F))

/-- A digit with a value. -/
def isDecimal (c : Char) : Bool := (digitValue? c).isSome

/-- The text without its underscores, if each stands between two digits. The flag tells whether a digit stands before
the text. -/
def ungrouped? (afterDigit : Bool) : List Char → Option (List Char)
  | [] => some []
  | c :: rest =>
    if c = '_' then
      if afterDigit && (rest.head?.any isDecimal) then ungrouped? false rest else none
    else (ungrouped? (isDecimal c) rest).map (c :: ·)

/-- The number that decimal digits write in base ten. -/
def value (digits : List Char) : Nat :=
  digits.foldl (fun n c => 10 * n + (digitValue? c).getD 0) 0

/-- Splits off a sign; the flag tells whether it is a minus. -/
def signed : List Char → Bool × List Char
  | '-' :: rest => (true, rest)
  | '+' :: rest => (false, rest)
  | text => (false, text)

/-- The exponent behind the digits: none, or a mark, an optional sign and digits. -/
def exponent? : List Char → Option Int
  | [] => some 0
  | mark :: text =>
    let (negative, digits) := signed text
    if (mark = 'e' ∨ mark = 'E') ∧ digits ≠ [] ∧ digits.all isDecimal = true then
      some (if negative then -(value digits : Int) else value digits)
    else none

/-- `digits * 10 ^ exponent` as the nearest double. -/
def scaled (digits : Nat) (exponent : Int) : Float :=
  Float.ofScientific digits (decide (exponent < 0)) exponent.natAbs

/-- A numeral without sign, margins and underscores. -/
def unsigned? (text : List Char) : Option Float :=
  let whole := text.takeWhile isDecimal
  let behind := text.dropWhile isDecimal
  let (fraction, tail) := match behind with
    | '.' :: rest => (rest.takeWhile isDecimal, rest.dropWhile isDecimal)
    | rest => ([], rest)
  if whole.isEmpty && fraction.isEmpty then none
  else (exponent? tail).map fun e => scaled (value (whole ++ fraction)) (e - fraction.length)

/-- The words that stand for a number. -/
def word? (text : List Char) : Option Float :=
  let lower := text.map Char.toLower
  if lower = "inf".toList ∨ lower = "infinity".toList then some (1.0 / 0.0)
  else if lower = "nan".toList then some (0.0 / 0.0)
  else none

/-- The double next to the number that a text writes. -/
def toFloat? (text : List Char) : Option Float := do
  let plain ← ungrouped? false (trimBy isMargin text)
  let (negative, rest) := signed plain
  let magnitude ← (unsigned? rest).or (word? rest)
  return if negative then -magnitude else magnitude

/-! ## Whole numbers -/

/-- What keeps a text from being read as a whole number. -/
inductive WholeFault where
  /-- The text writes no whole number. -/
  | malformed
  /-- It has too many digits. -/
  | tooLong (digits : Nat)
deriving DecidableEq, Repr

/-- The greatest number of digits of a whole number that is read. Zeros in front count. -/
def maxDigits : Nat := 4300

/-- The whole number that a text writes: a sign and digits, and nothing behind them. The digits are counted before the
text behind them is looked at. -/
def toInt (text : List Char) : Except WholeFault Int :=
  let (negative, rest) := signed (trimBy isMargin text)
  let grouped := rest.takeWhile fun c => isDecimal c || c == '_'
  match ungrouped? false grouped with
  | none => .error .malformed
  | some digits =>
    if maxDigits < digits.length then .error (.tooLong digits.length)
    else if digits.isEmpty || grouped.length != rest.length then .error .malformed
    else .ok (if negative then -(value digits : Int) else value digits)

end Formula.Numeral
