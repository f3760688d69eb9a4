import Formula.CommandLine.Binding
import Formula.Text.Quoted

/-!
# Arguments of the command line

Every argument is first classified on its own (`Piece.ofArgument?`): a switch, which may be abbreviated and may bring
its value along behind an equals sign; a plain argument; the sign that ends the switches; or something that looks like a
switch and is none. Then the pieces are taken from left to right (`Progress.readPieces`). The texts to be evaluated are
the first unbroken run of plain arguments; plain arguments after it belong to no one.
-/

namespace Formula.CommandLine

/-! ## Switches -/

inductive Switch where
  | help
  | bind
  | noDivisionException
  | showPostfix
  | logLevel
deriving DecidableEq, Repr

namespace Switch

/-- The spellings of all switches. -/
def spellings : List (String × Switch) :=
  [("-h", .help), ("--help", .help), ("--var", .bind), ("--no-division-exception", .noDivisionException),
   ("--postfix", .showPostfix), ("--log-level", .logLevel)]

/-- The switch in messages. -/
def inspect : Switch → String
  | .help => "-h/--help"
  | .bind => "--var"
  | .noDivisionException => "--no-division-exception"
  | .showPostfix => "--postfix"
  | .logLevel => "--log-level"

/-- The switch wants a value, along with it or in the argument behind it. -/
def takesValue : Switch → Bool
  | .bind | .logLevel => true
  | _ => false

end Switch

/-- What is wrong with arguments. -/
inductive UsageFault where
  | ambiguous (argument : String) (candidates : List String)
  /-- A value is given to a switch that takes none. -/
  | ignoredValue (switch : Switch) (value : String)
  | missingValue (switch : Switch)
  | badBinding (cause : BindingFault)
  | noExpressions
  | unrecognized (arguments : List String)
deriving DecidableEq

def UsageFault.message : UsageFault → String
  | .ambiguous argument candidates => s!"ambiguous option: {argument} could match " ++ ", ".intercalate candidates
  | .ignoredValue switch value => s!"argument {switch.inspect}: ignored explicit argument {Text.quoted value}"
  | .missingValue switch => s!"argument {switch.inspect}: expected one argument"
  | .badBinding cause => s!"argument {Switch.bind.inspect}: {cause.message}"
  | .noExpressions => "the following arguments are required: expressions"
  | .unrecognized arguments => "unrecognized arguments: " ++ " ".intercalate arguments

/-! ## Classification -/

/-- What an argument is on its own. -/
inductive Piece where
  | plain (text : String)
  /-- Behind it every argument is plain. -/
  | ending
  | named (switch : Switch) (value : Option String)
  /-- The short switch for help with letters behind it in one argument. -/
  | cluster (letters : List Char)
  | unknown (text : String)
deriving DecidableEq

/-- A minus and digits, with at most one point among them and a digit behind it. A line break may follow. -/
def isNegativeNumber (text : List Char) : Bool :=
  match text with
  | '-' :: body =>
    let body := if body.getLast? = some '\n' then body.dropLast else body
    match body.dropWhile Numeral.isDecimal with
    | [] => !body.isEmpty
    | '.' :: fraction => !fraction.isEmpty && fraction.all Numeral.isDecimal
    | _ => false
  | _ => false

namespace Piece

/-- A text up to its first equals sign, and the value behind it. -/
def splitValue (text : String) : String × Option String :=
  let chars := text.toList
  (String.ofList (chars.takeWhile (· != '=')),
    match chars.dropWhile (· != '=') with
    | [] => none
    | _ :: value => some (String.ofList value))

/-- An argument that starts with a minus and is no spelling of a switch, and starts none. -/
def unnamed (text : String) : Piece :=
  if isNegativeNumber text.toList then .plain text
  else if text.toList.contains ' ' then .plain text
  else .unknown text

/-- What an argument is. -/
def ofArgument? (text : String) : Except UsageFault Piece :=
  let (name, value) := splitValue text
  match text.toList with
  | '-' :: second :: tail =>
    match Switch.spellings.lookup text with
    | some switch => .ok (.named switch none)
    | none =>
      match Switch.spellings.lookup name, value with
      | some switch, some value =>
        .ok (if second = '-' ∨ value = "" then .named switch (some value) else .cluster value.toList)
      | _, _ =>
        if second = '-' then
          match Switch.spellings.filter fun spelling => name.toList.isPrefixOf spelling.1.toList with
          | [] => .ok (unnamed text)
          | [(_, switch)] => .ok (.named switch value)
          | candidates => .error (.ambiguous text (candidates.map Prod.fst))
        else if second = 'h' then .ok (.cluster tail)
        else .ok (unnamed text)
  | _ => .ok (.plain text)

/-- What arguments are, up to the first whose meaning is not clear. -/
def ofArguments? : List String → Except UsageFault (List Piece)
  | [] => .ok []
  | text :: rest =>
    if text = "--" then .ok (.ending :: rest.map .plain)
    else do
      let piece ← ofArgument? text
      let pieces ← ofArguments? rest
      return piece :: pieces

end Piece

/-! ## Reading -/

/-- What the command line asks for. -/
structure Request where
  expressions : List String
  bindings : List Binding
  divisionRaises : Bool
  showPostfix : Bool
  /-- None if the switch for it was left without a value. -/
  logLevel : Option String
deriving DecidableEq

/-- What comes of reading arguments. -/
inductive Reading where
  | help
  | refused (fault : UsageFault)
  /-- A switch for a binding was left without a value, behind so many bindings. -/
  | emptyBinding (before : Nat)
  | request (request : Request)
deriving DecidableEq

/-- The wording for a binding that was left without a value. -/
def emptyBindingMessage (before : Nat) : String :=
  s!"dictionary update sequence element #{before} has length 0; 2 is required"

/-- What was read so far. -/
structure Progress where
  request : Request
  /-- The number of bindings before the first that was left without a value. -/
  emptyBinding : Option Nat
  /-- The last piece belongs to the texts to be evaluated. -/
  running : Bool
  leftOver : List String

namespace Progress

/-- Nothing was read yet. -/
def start : Progress where
  request := ⟨[], [], true, false, some "WARNING"⟩
  emptyBinding := none
  running := false
  leftOver := []

/-- A plain argument is a text to be evaluated if there is none before it, or if it follows one directly. -/
def accepts (progress : Progress) : Bool := progress.request.expressions.isEmpty || progress.running

/-- Takes a plain argument. -/
def takePlain (progress : Progress) (text : String) : Progress :=
  if progress.accepts then
    { progress with
      request := { progress.request with expressions := progress.request.expressions ++ [text] }
      running := true }
  else { progress with leftOver := progress.leftOver ++ [text] }

/-- Takes the sign that ends the switches. Between texts it does not count. -/
def takeEnding (progress : Progress) : Progress :=
  if progress.accepts then progress else { progress with leftOver := progress.leftOver ++ ["--"] }

/-- Takes an argument that looks like a switch and is none. -/
def takeUnknown (progress : Progress) (text : String) : Progress :=
  { progress with running := false, leftOver := progress.leftOver ++ [text] }

/-- Takes a switch with its value. -/
def takeValue (progress : Progress) (switch : Switch) (value : String) : Except UsageFault Progress :=
  let request := progress.request
  match switch with
  | .bind =>
    match Binding.read value with
    | .ok binding =>
      .ok { progress with request := { request with bindings := request.bindings ++ [binding] }, running := false }
    | .error cause => .error (.badBinding cause)
  | .logLevel => .ok { progress with request := { request with logLevel := some value }, running := false }
  | switch => .error (.ignoredValue switch value)

/-- Takes a switch with what comes along with it in one argument. The sign that ends the switches is no value: it leaves
a switch that takes one without it. -/
def takeAttached (progress : Progress) (switch : Switch) (value : String) : Except UsageFault Progress :=
  let request := progress.request
  if value = "--" then
    match switch with
    | .bind =>
      .ok { progress with emptyBinding := progress.emptyBinding.or (some request.bindings.length), running := false }
    | .logLevel => .ok { progress with request := { request with logLevel := none }, running := false }
    | switch => .error (.ignoredValue switch value)
  else progress.takeValue switch value

/-- Takes a switch that has no value. -/
def takeSwitch (progress : Progress) (switch : Switch) : Except UsageFault Progress :=
  let request := progress.request
  match switch with
  | .noDivisionException =>
    .ok { progress with request := { request with divisionRaises := false }, running := false }
  | .showPostfix => .ok { progress with request := { request with showPostfix := true }, running := false }
  | switch => .error (.missingValue switch)

/-- The letters behind the short switch for help may be the same switch again. Anything else is a value for it, which is
refused. -/
def readCluster : List Char → Reading
  | [] => .help
  | 'h' :: letters => readCluster letters
  | value => .refused (.ignoredValue .help (String.ofList value))

/-- All arguments are read. -/
def finish (progress : Progress) : Reading :=
  if progress.request.expressions.isEmpty then .refused .noExpressions
  else if !progress.leftOver.isEmpty then .refused (.unrecognized progress.leftOver)
  else
    match progress.emptyBinding with
    | some before => .emptyBinding before
    | none => .request progress.request

/-- Takes pieces from left to right. -/
def readPieces (progress : Progress) : List Piece → Reading
  | [] => progress.finish
  | .plain text :: rest => (progress.takePlain text).readPieces rest
  | .ending :: rest => progress.takeEnding.readPieces rest
  | .unknown text :: rest => (progress.takeUnknown text).readPieces rest
  | .cluster letters :: _ => readCluster letters
  | .named .help none :: _ => .help
  | .named switch (some value) :: rest =>
    match progress.takeAttached switch value with
    | .ok next => next.readPieces rest
    | .error fault => .refused fault
  | .named switch none :: .plain text :: rest =>
    if switch.takesValue then
      match progress.takeValue switch text with
      | .ok next => next.readPieces rest
      | .error fault => .refused fault
    else
      match progress.takeSwitch switch with
      | .ok next => next.readPieces (.plain text :: rest)
      | .error fault => .refused fault
  | .named switch none :: rest =>
    match progress.takeSwitch switch with
    | .ok next => next.readPieces rest
    | .error fault => .refused fault

end Progress

/-- Reads arguments. -/
def readArguments (arguments : List String) : Reading :=
  match Piece.ofArguments? arguments with
  | .ok pieces => Progress.start.readPieces pieces
  | .error fault => .refused fault

end Formula.CommandLine
