import Formula.Infix

/-!
# Postfix order

Tokens in the order of a text are rearranged so that every operator and every function stands behind its operands
(`Postfix.ofInfix`). The tokens pass one by one through a machine: operands go straight on, and operators, functions and
opening brackets wait on a stack. For every open bracket the machine notes whether it belongs to a call and what it has
seen in it. A step gives the tokens that it lets go, so that the output of a run is the concatenation of what its steps
let go.
-/

namespace Formula.Postfix

/-! ## The machine -/

/-- What waits on the stack. -/
inductive Pending where
  | operator (token : Token) (op : Operator)
  | function (token : Token)
  | bracket (token : Token)

namespace Pending

def token : Pending → Token
  | .operator token _ | .function token | .bracket token => token

def isBracket : Pending → Bool
  | .bracket _ => true
  | _ => false

end Pending

/-- What is known of an open bracket. -/
structure Bracket where
  /-- The function that is called with what stands in the bracket. -/
  call : Option Function
  separators : Nat
  /-- Nothing stands behind the last separator, or in the bracket if it has none. -/
  segmentEmpty : Bool
  /-- Nothing stands in the bracket. -/
  empty : Bool

namespace Bracket

/-- A bracket that has just been opened. -/
def opened (call : Option Function) : Bracket := ⟨call, 0, true, true⟩

/-- The bracket with a token in it. -/
def mark (bracket : Bracket) : Bracket := { bracket with segmentEmpty := false, empty := false }

/-- The bracket with one more separator in it. -/
def separate (bracket : Bracket) : Bracket :=
  { bracket with separators := bracket.separators + 1, segmentEmpty := true }

def argumentCount (bracket : Bracket) : Nat := if bracket.empty then 0 else bracket.separators + 1

/-- A call has no empty argument and as many as its function takes; any other bracket is not empty. -/
def check (bracket : Bracket) : Except Fault Unit :=
  match bracket.call with
  | none => if bracket.empty then .error (.malformed .emptyBrackets) else .ok ()
  | some function =>
    if bracket.segmentEmpty ∧ 0 < bracket.separators then .error (.malformed (.emptyArgument function.name))
    else if bracket.argumentCount ≠ function.arity then
      .error (.malformed (.argumentCount function.name function.arity bracket.argumentCount))
    else .ok ()

end Bracket

/-- The state of the machine between two tokens. Both lists have the innermost entry first. -/
structure State where
  pending : List Pending
  brackets : List Bracket
  /-- The token before. -/
  previous : Option Token.Kind

namespace State

/-- The state before the first token. -/
def start : State := ⟨[], [], none⟩

/-- Marks the innermost bracket, unless the token ends what stands in it. -/
def marked (brackets : List Bracket) : Token.Kind → List Bracket
  | .closeBracket | .separator => brackets
  | _ =>
    match brackets with
    | [] => []
    | bracket :: outer => bracket.mark :: outer

/-- A waiting operator that goes before the given one takes its operands. -/
def yields (op : Operator) : Pending → Bool
  | .operator _ top =>
    decide (op.precedence < top.precedence ∨ top.precedence = op.precedence ∧ op.associativity = .left)
  | _ => false

/-- What waits inside the innermost bracket. -/
def inner (pending : List Pending) : List Pending := pending.takeWhile fun entry => !entry.isBracket

/-- What waits from the innermost bracket on. -/
def fromBracket (pending : List Pending) : List Pending := pending.dropWhile fun entry => !entry.isBracket

/-- One token: what is let go, and the new stack and brackets. The innermost bracket is already marked. -/
def place (registry : Registry) (previous : Option Token.Kind) (pending : List Pending) (brackets : List Bracket)
    (token : Token) : Except Fault (List Token × List Pending × List Bracket) :=
  match token.kind with
  | .number _ | .text _ _ | .var _ => .ok ([token], pending, brackets)
  | .function _ => .ok ([], .function token :: pending, brackets)
  | .openBracket => do
    let call ← match previous with
      | some (.function name) => (registry.resolveFunction name).map some
      | _ => pure none
    return ([], .bracket token :: pending, .opened call :: brackets)
  | .separator =>
    match brackets with
    | [] => .error (.malformed .separatorOutsideCall)
    | bracket :: outer =>
      match bracket.call with
      | none => .error (.malformed .separatorOutsideCall)
      | some function =>
        if bracket.segmentEmpty then .error (.malformed (.emptyArgument function.name))
        else .ok ((inner pending).map Pending.token, fromBracket pending, bracket.separate :: outer)
  | .closeBracket =>
    match brackets with
    | [] => .error (.malformed .unmatchedClosing)
    | bracket :: outer => do
      bracket.check
      let below := (fromBracket pending).tail
      let called := if bracket.call.isSome then 1 else 0
      return ((inner pending ++ below.take called).map Pending.token, below.drop called, outer)
  | .operator symbol _ => do
    let op ← registry.resolveOperator token.kind.fixity symbol
    let first := if token.kind.isUnary then [] else pending.takeWhile (yields op)
    return (first.map Pending.token, .operator token op :: pending.drop first.length, brackets)
  | .other _ _ _ => .error (.malformed (.unexpectedToken token.kind.inspect))

/-- Takes one token in, and gives what is let go. -/
def step (registry : Registry) (state : State) (token : Token) : Except Fault (List Token × State) := do
  let (out, pending, brackets) ←
    place registry state.previous state.pending (marked state.brackets token.kind) token
  return (out, ⟨pending, brackets, some token.kind⟩)

/-- Takes tokens in one by one, and gives all that is let go. -/
def run (registry : Registry) (state : State) : List Token → Except Fault (List Token × State)
  | [] => .ok ([], state)
  | token :: tokens => do
    let (out, next) ← state.step registry token
    let (more, last) ← next.run registry tokens
    return (out ++ more, last)

/-- Lets go what is left at the end. No bracket may be open. -/
def finish (state : State) : Except Fault (List Token) :=
  if state.pending.any Pending.isBracket then .error (.malformed .unmatchedOpening)
  else .ok (state.pending.map Pending.token)

end State

/-! ## Rearranging -/

/-- The tokens of a text in postfix order. -/
def ofInfix (registry : Registry) (tokens : List Token) : Except Fault (List Token) := do
  let (out, last) ← State.start.run registry tokens
  let rest ← last.finish
  return out ++ rest

/-- Reads a text and gives its tokens in postfix order. -/
def compile (registry : Registry) (text : String) : Except Fault (List Token) := do
  ofInfix registry (← Infix.read registry text)

end Formula.Postfix
