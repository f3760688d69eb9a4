import Formula.Literal
import Formula.Registry

/-!
# Reading texts

A text is read as a list of tokens in the order in which they stand (`Infix.read`). Between tokens there may be blanks.
A word right before an opening bracket is a function; any other word is an operator if it is a registered symbol, and a
variable if not. Other symbols are found by the longest registered one that the text goes on with. An operator stands
before its operand at the start, behind another operator, behind an opening bracket and behind a separator, and between
its operands everywhere else.
-/

namespace Formula.Infix

open Formula.Text

/-- Behind this token, or at the start, an operator stands before its operand. -/
def expectsOperand : Option Token.Kind → Bool
  | none => true
  | some (.operator _ _) | some .openBracket | some .separator => true
  | some _ => false

/-- The operator of a symbol behind a token. -/
def operatorKind (registry : Registry) (before : Option Token.Kind) (symbol : String) : Except Fault Token.Kind :=
  let fixity : Fixity := if expectsOperand before then .unary else .binary
  do
    let op ← registry.resolveOperator fixity symbol
    return .operator symbol op.fixity.arity

/-- A structural sign. -/
def structural? : Char → Option Token.Kind
  | '(' => some .openBracket
  | ')' => some .closeBracket
  | ',' => some .separator
  | _ => none

/-- What a word is, with the text behind it. -/
def wordKind (registry : Registry) (symbols : List String) (before : Option Token.Kind) (word : String)
    (behind : List Char) : Except Fault Token.Kind :=
  if behind.head? = some '(' then do
    let _ ← registry.resolveFunction word
    return .function word
  else if symbols.contains word then operatorKind registry before word
  else return .var word

/-- Reads the token at the head of a text that starts with no blank, behind the given token and at the given offset.
Beside the token it gives the number of its characters. -/
def readToken (registry : Registry) (symbols : List String) (before : Option Token.Kind) (position : Nat) (first : Char)
    (rest : List Char) : Except Fault (Token.Kind × Nat) :=
  let text := first :: rest
  if isDigit first || first == '.' then Literal.readNumeral text position
  else if let some quote := Literal.quoteOf? first then Literal.readString quote rest position
  else if isWordStart first then do
    let word := text.takeWhile isWordChar
    let kind ← wordKind registry symbols before (String.ofList word) (text.drop word.length)
    return (kind, word.length)
  else if let some kind := structural? first then return (kind, 1)
  else if let some symbol := symbols.find? fun symbol => symbol.toList.isPrefixOf text then do
    let kind ← operatorKind registry before symbol
    return (kind, symbol.length)
  else .error (.lexical (.strange first) position)

/-- Reads the tokens of a text that goes on behind the given token and at the given offset. Every token takes one
character at least. -/
def readFrom (registry : Registry) (symbols : List String) (before : Option Token.Kind) (position : Nat) :
    List Char → Except Fault (List Token)
  | [] => .ok []
  | first :: rest =>
    if isBlank first then readFrom registry symbols before (position + 1) rest
    else
      match readToken registry symbols before position first rest with
      | .error fault => .error fault
      | .ok (kind, count) =>
        match readFrom registry symbols (some kind) (position + 1 + (count - 1)) (rest.drop (count - 1)) with
        | .error fault => .error fault
        | .ok tokens => .ok (⟨kind, some (position : Int)⟩ :: tokens)
termination_by text => text.length
decreasing_by all_goals (simp only [List.length_cons, List.length_drop]; omega)

/-- The tokens of a text, in the order in which they stand. -/
def read (registry : Registry) (text : String) : Except Fault (List Token) :=
  readFrom registry registry.symbols none 0 text.toList

end Formula.Infix
