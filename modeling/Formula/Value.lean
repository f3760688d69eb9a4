import Formula.Number.Decimal
import Formula.Number.Numeral
import Formula.Text.Quoted

/-!
# Values

Variables hold values and callables take and give them: whole numbers of any size, doubles, texts, truth values and
nothing. A value becomes a double (`Value.toFloat`) or a whole number (`Value.toInt`), or there is a complaint about it;
and some values can be compared (`Value.isLess?`).
-/

namespace Formula

/-! ## Complaints -/

/-- What a callable is called in a complaint, and the names of the arguments that it takes. -/
structure Signature where
  label : String
  parameters : List String
  /-- Arguments that the callable brings along, counted with the others. -/
  bound : Nat
deriving DecidableEq

/-- The three kinds of complaint. -/
inductive ComplaintKind where
  /-- The value has the wrong type. -/
  | type
  /-- The value is of the right type and makes no sense. -/
  | value
  /-- The value is out of range. -/
  | range
deriving DecidableEq, Repr

/-- What is wrong with the values given to a conversion or to a callable. -/
inductive Complaint where
  /-- A text that writes no number. -/
  | notNumber (text : String)
  /-- A whole number beyond the doubles. -/
  | tooLarge
  /-- A text that writes no whole number. -/
  | notWhole (text : String)
  /-- A whole number is written with too many digits. -/
  | tooManyDigits (given : Nat)
  /-- A whole number is asked of a double that is no number. -/
  | wholeOfNaN
  /-- A whole number is asked of an infinite double. -/
  | wholeOfInfinity
  /-- A whole number is asked of nothing. -/
  | wholeOfNothing
  /-- A callable is given more or fewer arguments than it takes. -/
  | argumentCount (signature : Signature) (given : Nat)
  /-- A complaint in the words of the callable. -/
  | other (kind : ComplaintKind) (message : String)
deriving DecidableEq

/-- Names in quotes, with commas between them and a word before the last. -/
def listed (names : List String) : String :=
  match names.map fun a => s!"'{a}'" with
  | [] => ""
  | [a] => a
  | [a, b] => s!"{a} and {b}"
  | a :: b :: rest => ", ".intercalate (a :: (b :: rest).dropLast) ++ ", and " ++ rest.getLastD b

/-- The ending of a counted noun. -/
def plural (count : Nat) : String := if count = 1 then "" else "s"

/-- What is wrong with the number of arguments. -/
def Signature.complaint (signature : Signature) (given : Nat) : String :=
  if given < signature.parameters.length then
    let missing := signature.parameters.drop given
    let noun := "argument" ++ plural missing.length
    s!"{signature.label}() missing {missing.length} required positional {noun}: {listed missing}"
  else
    let taken := signature.parameters.length + signature.bound
    let verb := if given + signature.bound = 1 then "was" else "were"
    s!"{signature.label}() takes {taken} positional argument{plural taken} but {given + signature.bound} {verb} given"

namespace Complaint

def kind : Complaint → ComplaintKind
  | .notNumber _ | .notWhole _ | .tooManyDigits _ | .wholeOfNaN => .value
  | .tooLarge | .wholeOfInfinity => .range
  | .wholeOfNothing | .argumentCount _ _ => .type
  | .other kind _ => kind

/-- The wording of a complaint. Of a text that writes no whole number only the head is shown. -/
def message : Complaint → String
  | .notNumber text => s!"could not convert string to float: {Text.quoted text}"
  | .tooLarge => "int too large to convert to float"
  | .notWhole text => "invalid literal for int() with base 10: " ++ Text.quotedHead 200 text
  | .tooManyDigits given =>
    s!"Exceeds the limit ({Numeral.maxDigits} digits) for integer string conversion: " ++
      s!"value has {given} digits; use sys.set_int_max_str_digits() to increase the limit"
  | .wholeOfNaN => "cannot convert float NaN to integer"
  | .wholeOfInfinity => "cannot convert float infinity to integer"
  | .wholeOfNothing => "int() argument must be a string, a bytes-like object or a real number, not 'NoneType'"
  | .argumentCount signature given => signature.complaint given
  | .other _ message => message

end Complaint

/-! ## Values -/

/-- What variables hold, and what callables take and give. -/
inductive Value where
  | int (n : Int)
  | float (x : Float)
  | text (s : String)
  | truth (b : Bool)
  | nothing
deriving DecidableEq

/-- The double next to a whole number, if it is in range. -/
def floatOfInt (n : Int) : Except Complaint Float :=
  let size := Float.ofNat n.natAbs
  if size.isInf then .error .tooLarge else .ok (if n < 0 then -size else size)

namespace Value

/-- A text in messages. -/
def inspect : Value → String
  | .int n => toString n
  | .float x => numberText x
  | .text s => Text.quoted s
  | .truth true => "True"
  | .truth false => "False"
  | .nothing => "None"

/-- The word for the type of a value in messages. -/
def typeWord : Value → String
  | .int _ => "int"
  | .float _ => "float"
  | .text _ => "str"
  | .truth _ => "bool"
  | .nothing => "NoneType"

/-- A whole number or a double, and not a truth value. -/
def isNumeric : Value → Bool
  | .int _ | .float _ => true
  | _ => false

/-- The value as a double. A text is read as a numeral, the truth values are one and zero, and nothing is no number. -/
def toFloat : Value → Except Complaint Float
  | .int n => floatOfInt n
  | .float x => .ok x
  | .text s => match Numeral.toFloat? s.toList with
    | some x => .ok x
    | none => .error (.notNumber s)
  | .truth b => .ok (if b then 1.0 else 0.0)
  | .nothing => .ok (0.0 / 0.0)

/-- The value as a whole number. A double loses its fraction. -/
def toInt : Value → Except Complaint Int
  | .int n => .ok n
  | .float x =>
    if x.isNaN then .error .wholeOfNaN else if x.isInf then .error .wholeOfInfinity else .ok (truncated x)
  | .text s => match Numeral.toInt s.toList with
    | .ok n => .ok n
    | .error .malformed => .error (.notWhole s)
    | .error (.tooLong digits) => .error (.tooManyDigits digits)
  | .truth b => .ok (if b then 1 else 0)
  | .nothing => .error .wholeOfNothing

/-- The whole number that a value is when it is compared. A truth value counts as one or zero. -/
def whole? : Value → Option Int
  | .int n => some n
  | .truth b => some (if b then 1 else 0)
  | _ => none

/-- Whether the first value is less than the second. Numbers are compared exactly and texts by their code points; other
values are not compared. -/
def isLess? : Value → Value → Option Bool
  | .text s, .text t => some (decide (s < t))
  | .float x, .float y => some (decide (x < y))
  | .float x, value => value.whole?.map fun n => isBelow (-n) (-x)
  | value, .float y => value.whole?.map fun n => isBelow n y
  | value, other => do return decide ((← value.whole?) < (← other.whole?))

end Value

end Formula
