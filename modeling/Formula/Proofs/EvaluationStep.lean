import Formula.Evaluation

/-!
# What a token asks for

A step of evaluation has two parts (`Evaluation.step_eq`). First it is found out what the token asks for on the stack:
an operand to be put on it, or the call of a callable with operands from it (`Evaluation.ask`). Then it is given
(`Evaluation.give`). Callables are called in the second part alone, and only there the policy on zero divisors matters.
-/

namespace Formula.Evaluation

/-- What a token asks for on a stack: an operand to be put on it, or a call whose result is put on what is below its
operands. -/
inductive Asked where
  | operand (operand : Operand)
  | call (name : String) (callable : Callable) (args : List Value) (below : List Operand)

/-- What a token asks for. The policy does not matter to it. -/
def ask (registry : Registry) (environment : Environment) (stack : List Operand) (token : Token) :
    Except Fault Asked :=
  match token.kind with
  | .number x => .ok (.operand (.number x))
  | .text _ content => .ok (.operand (.text content))
  | .var name => do
    let x ← lookUp environment name
    return .operand (.number x)
  | .operator symbol _ => do
    let op ← registry.resolveOperator token.kind.fixity symbol
    let (operands, below) ← takeOperands symbol op.fixity.arity stack
    if operands.any Operand.isText then .error (.malformed (.textOperand symbol))
    else return .call symbol op.callable (operands.map Operand.toValue) below
  | .function name => do
    let function ← registry.resolveFunction name
    let (operands, below) ← takeOperands name function.arity stack
    return .call name function.callable (operands.map Operand.toValue) below
  | .openBracket | .closeBracket | .separator => .error (.malformed (.structuralToken token.kind.name))
  | .other _ shown _ => .error (.malformed (.unknownKind shown))

/-- Gives what is asked for, under a policy. -/
def give (raises : Bool) (stack : List Operand) : Asked → Except Fault (List Operand)
  | .operand operand => .ok (operand :: stack)
  | .call name callable args below => do
    let x ← invoke raises name callable args
    return .number x :: below

/-- A step gives what its token asks for. -/
theorem step_eq {registry : Registry} {environment : Environment} (stack : List Operand) (token : Token) :
    step registry environment stack token =
      ask registry environment stack token >>= give registry.divisionRaises stack := by
  unfold step ask
  cases hk : token.kind with
  | number _ | text _ _ | openBracket | closeBracket | separator | other _ => rfl
  | var name =>
    dsimp only
    rw [bind_assoc]
    exact bind_congr fun x => rfl
  | operator symbol arity =>
    dsimp only
    rw [bind_assoc]
    refine bind_congr fun op => ?_
    rw [bind_assoc]
    refine bind_congr fun (operands, below) => ?_
    dsimp only
    split <;> rfl
  | function name =>
    dsimp only
    rw [bind_assoc]
    refine bind_congr fun function => ?_
    rw [bind_assoc]
    exact bind_congr fun (operands, below) => rfl

end Formula.Evaluation
