import Formula.Fixity
import Formula.Number.Decimal
import Formula.Text.Quoted

/-!
# Tokens

A token is a number, a string, a variable, an operator, a function or one of the structural signs, and it may know its
offset in the text that it was read from. Tokens are alike (`Kind.isLike`) if they have the same category, name, arity
and quote; neither the offset nor the exact value of a number counts.
-/

namespace Formula

/-- The quote of a string. -/
inductive Quote where
  | single
  | double
deriving DecidableEq, Repr

def Quote.char : Quote → Char
  | .single => '\x27'
  | .double => '\x22'

/-- A whole number below `10 ^ 15` is named without a fraction, any other number by its shortest text. -/
def numberName (x : Float) : String :=
  if isWhole x && x.abs < 1e15 then toString (truncated x) else numberText x

namespace Token

/-- The categories that tokens fall into. -/
inductive Category where
  | number
  | text
  | var
  | operator
  | function
  | openBracket
  | closeBracket
  | separator
  /-- A category that no rule knows, with its word and the text that shows it. -/
  | other (word shown : String)
deriving DecidableEq

/-- The word for a category. -/
def Category.word : Category → String
  | .number => "NUMBER"
  | .text => "STRING"
  | .var => "VARIABLE"
  | .operator => "OPERATOR"
  | .function => "FUNCTION"
  | .openBracket => "LEFT_PAREN"
  | .closeBracket => "RIGHT_PAREN"
  | .separator => "SEPARATOR"
  | .other word _ => word

/-- What a token is: its category, which is always a member of an enumeration, and what it owns. A number owns its
double and a string its quote; there are no tokens of these categories without. -/
inductive Kind where
  | number (value : Float)
  | text (quote : Quote) (content : String)
  | var (name : String)
  | operator (symbol : String) (arity : Int)
  | function (name : String)
  | openBracket
  | closeBracket
  | separator
  /-- A token of a category that no rule knows. -/
  | other (word shown name : String)
deriving DecidableEq

namespace Kind

def category : Kind → Category
  | .number _ => .number
  | .text _ _ => .text
  | .var _ => .var
  | .operator _ _ => .operator
  | .function _ => .function
  | .openBracket => .openBracket
  | .closeBracket => .closeBracket
  | .separator => .separator
  | .other word shown _ => .other word shown

def name : Kind → String
  | .number value => numberName value
  | .text _ content => content
  | .var name => name
  | .operator symbol _ => symbol
  | .function name => name
  | .openBracket => "("
  | .closeBracket => ")"
  | .separator => ","
  | .other _ _ name => name

/-- The number of operands of an operator; nothing else has any. -/
def arity : Kind → Int
  | .operator _ arity => arity
  | _ => 0

def quote? : Kind → Option Quote
  | .text quote _ => some quote
  | _ => none

/-- An operator of one operand. -/
def isUnary : Kind → Bool
  | .operator _ arity => arity == 1
  | _ => false

/-- An operator of one operand stands before it; every other stands between two. -/
def fixity (kind : Kind) : Fixity := if kind.isUnary then .unary else .binary

/-- The kind as it is shown in messages. -/
def inspect (kind : Kind) : String := s!"Token({kind.category.word}, {Text.quoted kind.name})"

/-- The kind as it is shown in a list of tokens. A string stands between its quotes, and an operator of one operand has
a mark. -/
def render : Kind → String
  | .text quote content => s!"{quote.char}{content}{quote.char}"
  | .operator symbol arity => if arity = 1 then s!"{symbol}u" else symbol
  | kind => kind.name

/-- What two tokens must share to be alike. -/
def likeness (kind : Kind) : Category × String × Int × Option Quote :=
  (kind.category, kind.name, kind.arity, kind.quote?)

def isLike (a b : Kind) : Bool := decide (a.likeness = b.likeness)

end Kind

end Token

/-- A token and its offset in the text that it was read from. A token that was made by hand may carry any number. -/
structure Token where
  kind : Token.Kind
  position : Option Int
deriving DecidableEq

/-- Tokens with one blank between two. -/
def renderTokens (tokens : List Token) : String :=
  " ".intercalate (tokens.map fun token => token.kind.render)

end Formula
