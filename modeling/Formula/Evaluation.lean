import Formula.Postfix

/-!
# Evaluation

A list of tokens in postfix order is evaluated over a stack of operands. Numbers, strings and variables are put on it;
an operator or a function takes as many operands as its definition says, the last one first, and puts its result in
their place. In the end the stack must hold one number (`Evaluation.evaluate`).
-/

namespace Formula.Evaluation

/-- What the names in a text stand for. -/
abbrev Environment := String → Option Value

/-- What operators and functions take. Strings may only be taken by functions. -/
inductive Operand where
  | number (x : Float)
  | text (content : String)
deriving DecidableEq

namespace Operand

def toValue : Operand → Value
  | .number x => .float x
  | .text content => .text content

def isText : Operand → Bool
  | .number _ => false
  | .text _ => true

end Operand

/-- The number that a variable stands for. -/
def lookUp (environment : Environment) (name : String) : Except Fault Float :=
  match environment name with
  | none => .error (.unboundVariable name)
  | some value =>
    match value.toFloat with
    | .ok x => .ok x
    | .error _ => .error (.malformed (.variableNotNumber name value))

/-- The number that a callable gives. A complaint about its arguments is a fault of the expression, and so is a result
that is no number. -/
def invoke (raises : Bool) (name : String) (callable : Callable) (args : List Value) : Except Fault Float :=
  match callable.call raises args with
  | .error (.complaint cause) => .error (.malformed (.invalidArguments name cause))
  | .error refusal => .error (.refused refusal)
  | .ok value =>
    if value.isNumeric then
      match value.toFloat with
      | .ok x => .ok x
      | .error _ => .error (.malformed (.resultTooLarge name value))
    else .error (.malformed (.resultNotNumber name value))

/-- The last operands on a stack that has the last one first, in the order in which they were put on it, and the stack
below them. -/
def takeOperands (name : String) (arity : Nat) (stack : List Operand) : Except Fault (List Operand × List Operand) :=
  if stack.length < arity then .error (.malformed (.tooFewOperands name))
  else .ok ((stack.take arity).reverse, stack.drop arity)

/-- Evaluates one token on a stack. -/
def step (registry : Registry) (environment : Environment) (stack : List Operand) (token : Token) :
    Except Fault (List Operand) :=
  match token.kind with
  | .number x => .ok (.number x :: stack)
  | .text _ content => .ok (.text content :: stack)
  | .var name => do
    let x ← lookUp environment name
    return .number x :: stack
  | .operator symbol _ => do
    let op ← registry.resolveOperator token.kind.fixity symbol
    let (operands, below) ← takeOperands symbol op.fixity.arity stack
    if operands.any Operand.isText then .error (.malformed (.textOperand symbol))
    else
      let x ← invoke registry.divisionRaises symbol op.callable (operands.map Operand.toValue)
      return .number x :: below
  | .function name => do
    let function ← registry.resolveFunction name
    let (operands, below) ← takeOperands name function.arity stack
    let x ← invoke registry.divisionRaises name function.callable (operands.map Operand.toValue)
    return .number x :: below
  | .openBracket | .closeBracket | .separator => .error (.malformed (.structuralToken token.kind.name))
  | .other _ shown _ => .error (.malformed (.unknownKind shown))

/-- The number that is left on a stack. -/
def result : List Operand → Except Fault Float
  | [.number x] => .ok x
  | [.text _] => .error (.malformed .textResult)
  | stack => .error (.malformed (.unbalanced stack.length))

/-- Evaluates tokens in postfix order. -/
def evaluate (registry : Registry) (environment : Environment) (tokens : List Token) : Except Fault Float := do
  result (← tokens.foldlM (step registry environment) [])

end Formula.Evaluation
