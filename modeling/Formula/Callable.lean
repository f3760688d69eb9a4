import Formula.Elementary.Circular
import Formula.Elementary.Power
import Formula.Fault

/-!
# Callables

What an operator or a function computes: the division, which follows a policy on zero divisors that may change between
two calls, or any function of a list of values. The standard ones take a fixed number of values and compute with
doubles.
-/

namespace Formula

/-- What an operator or a function computes. -/
inductive Callable where
  /-- The division under the policy in force when it is called. -/
  | division
  | ofFunction (compute : List Value → Except Refusal Value)

namespace Callable

/-- A function of one double. -/
def ofUnary (signature : Signature) (compute : Float → Float) (args : List Value) : Except Refusal Value :=
  match args with
  | [a] => do return .float (compute (← a.toFloat.mapError .complaint))
  | _ => .error (.complaint (.argumentCount signature args.length))

/-- A function of two doubles, which may refuse. -/
def ofBinary? (signature : Signature) (compute : Float → Float → Except Refusal Float) (args : List Value) :
    Except Refusal Value :=
  match args with
  | [a, b] => do return .float (← compute (← a.toFloat.mapError .complaint) (← b.toFloat.mapError .complaint))
  | _ => .error (.complaint (.argumentCount signature args.length))

/-- A function of two doubles. -/
def ofBinary (signature : Signature) (compute : Float → Float → Float) : List Value → Except Refusal Value :=
  ofBinary? signature fun a b => .ok (compute a b)

/-- The quotient. A zero divisor is refused, or it gives an infinity that is negative if just one of the two operands
has its sign bit set, and no number if the dividend is zero or no number. -/
def quotient (raises : Bool) (a b : Float) : Except Refusal Float :=
  if b == 0.0 then
    if raises then .error .divisionByZero
    else if a == 0.0 || a.isNaN then .ok (0.0 / 0.0)
    else .ok (if isNegative a == isNegative b then 1.0 / 0.0 else -1.0 / 0.0)
  else .ok (a / b)

/-- The lesser of two; no number if one of them is none, and the second if they are equal. -/
def lesser (a b : Float) : Float :=
  if a.isNaN || b.isNaN then 0.0 / 0.0 else if a < b then a else b

/-- The greater of two; no number if one of them is none, and the second if they are equal. -/
def greater (a b : Float) : Float :=
  if a.isNaN || b.isNaN then 0.0 / 0.0 else if b < a then a else b

/-- The signature of a standard operation on two operands. -/
def binarySignature (name : String) : Signature := ⟨"Operators." ++ name, ["operand1", "operand2"], 0⟩

/-- The signature of a standard operation on one operand. -/
def unarySignature (name : String) : Signature := ⟨"Operators." ++ name, ["operand"], 0⟩

/-- The division brings its registry along. -/
def divisionSignature : Signature := ⟨"Operators.div", ["operand1", "operand2"], 1⟩

/-- The signature that all elementary functions share. -/
def elementarySignature : Signature := ⟨"Operators._unary_math.<locals>.wrapper", ["operand"], 0⟩

/-- What a callable gives for a list of values, under a policy on zero divisors. -/
def call (raises : Bool) : Callable → List Value → Except Refusal Value
  | .division => ofBinary? divisionSignature (quotient raises)
  | .ofFunction compute => compute

/-! ## The standard callables -/

def add : Callable := .ofFunction (ofBinary (binarySignature "add") (· + ·))

def sub : Callable := .ofFunction (ofBinary (binarySignature "sub") (· - ·))

def mul : Callable := .ofFunction (ofBinary (binarySignature "mul") (· * ·))

def power : Callable := .ofFunction (ofBinary (binarySignature "power") Elementary.pow)

def pos : Callable := .ofFunction (ofUnary (unarySignature "pos") id)

def neg : Callable := .ofFunction (ofUnary (unarySignature "neg") fun a => -a)

def min : Callable := .ofFunction (ofBinary (binarySignature "min") lesser)

def max : Callable := .ofFunction (ofBinary (binarySignature "max") greater)

def average : Callable := .ofFunction (ofBinary (binarySignature "avg") fun a b => (a + b) / 2.0)

/-- An elementary function. -/
def elementary (compute : Float → Float) : Callable := .ofFunction (ofUnary elementarySignature compute)

end Callable

end Formula
