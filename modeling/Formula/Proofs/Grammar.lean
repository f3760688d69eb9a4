import Formula.Proofs.Outcome
import Formula.Token

/-!
# The grammar of infix lists

An infix list is an expression if it is made of operands with operators of two operands between them. An operand is a
number, a string, a variable, an expression in brackets or the call of a function, behind any number of operators of one
operand. All operators and functions are registered, and a call has as many arguments as its function takes.

`Phrase registry part tokens` says that the tokens are such a part of an expression. What may stand behind an operand is
a part of its own (`Part.tail`): nothing, or an operator of two operands and another expression.
-/

namespace Formula

/-- A number, a string or a variable. -/
def Token.Kind.isLeaf : Token.Kind → Bool
  | .number _ | .text _ _ | .var _ => true
  | _ => false

/-- The operator that a token of the given fixity stands for. -/
def Registry.operatorOf? (registry : Registry) (fixity : Fixity) (kind : Token.Kind) : Option Operator :=
  match kind with
  | .operator symbol _ => if kind.fixity = fixity then (registry.operators fixity).find? symbol else none
  | _ => none

theorem Registry.operatorOf?_eq_some {registry : Registry} {fixity : Fixity} {kind : Token.Kind} {op : Operator} :
    registry.operatorOf? fixity kind = some op ↔
      ∃ symbol arity, kind = .operator symbol arity ∧ kind.fixity = fixity ∧
        registry.resolveOperator fixity symbol = .ok op := by
  constructor
  · intro h
    cases kind with
    | operator symbol arity =>
      simp only [operatorOf?] at h
      split at h
      · rename_i hf
        exact ⟨symbol, arity, rfl, hf, Registry.resolveOperator_eq_ok.mpr h⟩
      · cases h
    | _ => cases h
  · rintro ⟨symbol, arity, rfl, hf, h⟩
    simp only [operatorOf?, hf, if_true]
    exact Registry.resolveOperator_eq_ok.mp h

/-- The parts of an expression. -/
inductive Part where
  | expression
  /-- What stands behind the first operand of an expression. -/
  | tail
  | operand
  /-- So many expressions with separators between them. -/
  | arguments (count : Nat)

/-- The tokens are such a part of an expression. -/
inductive Phrase (registry : Registry) : Part → List Token → Prop
  | leaf {token : Token} (h : token.kind.isLeaf = true) : Phrase registry .operand [token]
  | sign {token : Token} {op : Operator} {tokens : List Token}
      (h : registry.operatorOf? .unary token.kind = some op) (operand : Phrase registry .operand tokens) :
      Phrase registry .operand (token :: tokens)
  | brackets {opening closing : Token} {tokens : List Token} (ho : opening.kind = .openBracket)
      (expression : Phrase registry .expression tokens) (hc : closing.kind = .closeBracket) :
      Phrase registry .operand (opening :: (tokens ++ [closing]))
  | call {token opening closing : Token} {name : String} {function : Function} {tokens : List Token}
      (hk : token.kind = .function name) (hf : registry.functions.find? name = some function)
      (ho : opening.kind = .openBracket) (arguments : Phrase registry (.arguments function.arity) tokens)
      (hc : closing.kind = .closeBracket) : Phrase registry .operand (token :: opening :: (tokens ++ [closing]))
  | expression {tokens behind : List Token} (operand : Phrase registry .operand tokens)
      (tail : Phrase registry .tail behind) : Phrase registry .expression (tokens ++ behind)
  | nothing : Phrase registry .tail []
  | more {token : Token} {op : Operator} {tokens : List Token}
      (h : registry.operatorOf? .binary token.kind = some op) (expression : Phrase registry .expression tokens) :
      Phrase registry .tail (token :: tokens)
  | noArgument : Phrase registry (.arguments 0) []
  | argument {tokens : List Token} (expression : Phrase registry .expression tokens) :
      Phrase registry (.arguments 1) tokens
  | separated {count : Nat} {separator : Token} {tokens behind : List Token}
      (expression : Phrase registry .expression tokens) (hs : separator.kind = .separator)
      (arguments : Phrase registry (.arguments (count + 1)) behind) :
      Phrase registry (.arguments (count + 2)) (tokens ++ separator :: behind)

end Formula
