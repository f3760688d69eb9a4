import Formula.Fixity
import Formula.Value

/-!
# Faults

Everything that can go wrong, by its cause. Each cause has one wording (`Fault.message`). Faults of an expression have a
label besides (`Fault.label?`), under which they are reported; the others are misuses of a registry or a session, or
come from a callable.
-/

namespace Formula

/-- What keeps a text from being read as tokens. -/
inductive LexicalFault where
  /-- A second point in a numeral, or one behind its exponent. -/
  | unexpectedPoint
  /-- A numeral that has no value. -/
  | badNumeral (text : String)
  /-- A string without its closing quote. -/
  | unclosedString
  /-- A character that starts no token. -/
  | strange (c : Char)
deriving DecidableEq

/-- What is wrong with the arrangement of tokens, or with the values that meet in it. -/
inductive Malformation where
  | separatorOutsideCall
  | emptyArgument (function : String)
  | unmatchedClosing
  | unmatchedOpening
  | emptyBrackets
  | argumentCount (function : String) (expected given : Nat)
  | unexpectedToken (shown : String)
  | variableNotNumber (name : String) (value : Value)
  | textOperand (symbol : String)
  | invalidArguments (name : String) (complaint : Complaint)
  | resultNotNumber (name : String) (value : Value)
  | resultTooLarge (name : String) (value : Value)
  | tooFewOperands (name : String)
  | structuralToken (name : String)
  /-- A token is of a category that no rule knows. -/
  | unknownKind (shown : String)
  | unbalanced (left : Nat)
  | textResult
deriving DecidableEq

/-- What is wrong with a definition. -/
inductive DefinitionFault where
  | operatorArity (arity : Int)
  | operatorSymbol (symbol : String)
  | functionName (name : String)
  | functionArity (arity : Int)
  | noCallable (name : String)
deriving DecidableEq

/-- What a callable gives in place of a value. -/
inductive Refusal where
  /-- A complaint about its arguments. -/
  | complaint (cause : Complaint)
  | divisionByZero
  /-- Any other failure of its own. -/
  | failure (label message : String)
deriving DecidableEq

/-- Everything that can go wrong. -/
inductive Fault where
  | lexical (cause : LexicalFault) (position : Nat)
  | malformed (cause : Malformation)
  | unknownOperator (fixity : Fixity) (symbol : String)
  | unknownFunction (name : String)
  | unboundVariable (name : String)
  | refused (refusal : Refusal)
  | definition (cause : DefinitionFault)
  /-- A variable is given a value that is no number. -/
  | variableType (name : String) (value : Value)
  /-- An entry is to be dropped from a cache that holds none. -/
  | cacheEmpty
deriving DecidableEq

def LexicalFault.message : LexicalFault → String
  | .unexpectedPoint => "Unexpected period (.)"
  | .badNumeral text => s!"Invalid number '{text}'"
  | .unclosedString => "Unterminated string literal"
  | .strange c => s!"Unrecognized character '{c}'"

def Malformation.message : Malformation → String
  | .separatorOutsideCall => "Argument separator outside of a function call"
  | .emptyArgument function => s!"Empty argument in call to {function}"
  | .unmatchedClosing => "Unmatched closing parenthesis"
  | .unmatchedOpening => "Unmatched opening parenthesis"
  | .emptyBrackets => "Empty parentheses"
  | .argumentCount function expected given => s!"Function {function} expects {expected} argument(s), got {given}"
  | .unexpectedToken shown => s!"Unexpected token {shown}"
  | .variableNotNumber name value => s!"Variable {name} is not a number: {value.inspect}"
  | .textOperand symbol => s!"Operator {symbol} cannot be applied to a string literal"
  | .invalidArguments name complaint => s!"Invalid arguments for {name}: {complaint.message}"
  | .resultNotNumber name value => s!"{name} returned a non-numeric value: {value.inspect}"
  | .resultTooLarge name value => s!"{name} returned a value too large for a float: {value.inspect}"
  | .tooFewOperands name => s!"Insufficient operands for {name}"
  | .structuralToken name => s!"Unexpected {Text.quoted name} in postfix sequence"
  | .unknownKind shown => s!"Unknown token type: {shown}"
  | .unbalanced left => s!"Stack has {left} elements after evaluation, expected 1"
  | .textResult => "Expression result is not a number"

def DefinitionFault.message : DefinitionFault → String
  | .operatorArity arity => s!"Operator arity must be 1 or 2, got {arity}"
  | .operatorSymbol symbol => s!"Invalid operator symbol: {Text.quoted symbol}"
  | .functionName name => s!"Invalid function name: {Text.quoted name}"
  | .functionArity arity => s!"Function arity must be non-negative, got {arity}"
  | .noCallable name => s!"Function ({name}) needs a callable"

def Refusal.message : Refusal → String
  | .complaint cause => cause.message
  | .divisionByZero => "Division by zero"
  | .failure _ message => message

namespace Fault

def message : Fault → String
  | .lexical cause position => s!"{cause.message} at position {position}"
  | .malformed cause => cause.message
  | .unknownOperator fixity symbol => s!"Unknown {fixity.word} operator: {symbol}"
  | .unknownFunction name => s!"Unknown function: {name}"
  | .unboundVariable name => s!"Variable ({name}) not set"
  | .refused refusal => refusal.message
  | .definition cause => cause.message
  | .variableType name value => s!"Variable ({name}) value must be a number, got {value.typeWord}"
  | .cacheEmpty => "'dictionary is empty'"

/-- The label of a fault of an expression. -/
def label? : Fault → Option String
  | .lexical _ _ => some "LexError"
  | .malformed _ => some "IncorrectExpressionError"
  | .unknownOperator _ _ | .unknownFunction _ => some "UnknownTokenError"
  | .unboundVariable _ => some "UnknownVariableError"
  | .refused .divisionByZero => some "DivisionByZeroError"
  | _ => none

end Fault

end Formula
