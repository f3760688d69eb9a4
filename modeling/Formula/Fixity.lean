/-!
# Fixity and associativity

How an operator stands to its operands: before one or between two; and which of two equal operators in a row between
operands takes the middle one.
-/

namespace Formula

/-- Where an operator stands. -/
inductive Fixity where
  /-- Before its only operand. -/
  | unary
  /-- Between its two operands. -/
  | binary
deriving DecidableEq, Repr

/-- The number of operands. -/
def Fixity.arity : Fixity → Nat
  | .unary => 1
  | .binary => 2

/-- The word for a fixity in messages. -/
def Fixity.word : Fixity → String
  | .unary => "unary"
  | .binary => "binary"

/-- Which of two equal operators in a row goes first. -/
inductive Associativity where
  | left
  | right
deriving DecidableEq, Repr

/-- The word for an associativity in descriptions. -/
def Associativity.word : Associativity → String
  | .left => "left"
  | .right => "right"

end Formula
