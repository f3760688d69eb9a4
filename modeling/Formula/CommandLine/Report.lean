import Formula.CommandLine.Arguments
import Formula.Session

/-!
# Reports of the command line

The texts of a request are evaluated one after another in one session. Each gives a line with its result, before it a
line with its postfix order if the request asks for that, or a message about what went wrong; a fault of one text does
not keep the next from being evaluated (`CommandLine.run`). Lines and messages stay in the order in which they are
written. Reports are put together by `Report.append`.
-/

namespace Formula.CommandLine

/-- What is written on the way. -/
inductive Event where
  /-- A line of the output. -/
  | line (text : String)
  /-- A message about a text that went wrong. -/
  | message (text : String)
deriving DecidableEq, Repr

def Event.line? : Event → Option String
  | .line text => some text
  | .message _ => none

def Event.message? : Event → Option String
  | .line _ => none
  | .message text => some text

/-- What is written for a request. -/
structure Report where
  /-- Lines and messages in the order in which they are written. -/
  events : List Event
  /-- Some text went wrong. -/
  failed : Bool
deriving DecidableEq, Repr

namespace Report

def empty : Report := ⟨[], false⟩

/-- One report after another. -/
def append (first second : Report) : Report := ⟨first.events ++ second.events, first.failed || second.failed⟩

/-- The output. -/
def lines (report : Report) : List String := report.events.filterMap Event.line?

/-- The log. -/
def messages (report : Report) : List String := report.events.filterMap Event.message?

/-- The number that the program ends with. -/
def status (report : Report) : Nat := if report.failed then 1 else 0

end Report

/-- Results have at most fifteen digits, without zeros at the end of a fraction, and an exponent from `10 ^ 15` on. -/
def resultLayout : Layout where
  choose := Magnitude.rounded 15
  plainBelow := 15
  showsFraction := false

/-- The line with the result of a text. -/
def resultLine (text : String) (value : Float) : Event := .line s!"{text} = {resultLayout.render value}"

/-- The line with the postfix order of a text. -/
def postfixLine (text : String) (tokens : List Token) : Event := .line s!"{text} => {renderTokens tokens}"

/-- The report on a text that went wrong after some events. Only faults of an expression are reported. -/
def reportFault (before : List Event) (text : String) (fault : Fault) : Except Fault Report :=
  match fault.label? with
  | some label => .ok ⟨before ++ [.message s!"{text}: {label}: {fault.message}"], true⟩
  | none => .error fault

/-- Evaluates a text after the events that it has already given. -/
def runResult (before : List Event) (session : Session) (text : String) : Except Fault Report × Session :=
  match session.execute text with
  | (.ok value, next) => (.ok ⟨before ++ [resultLine text value], false⟩, next)
  | (.error fault, next) => (reportFault before text fault, next)

/-- Evaluates one text. -/
def runText (showPostfix : Bool) (session : Session) (text : String) : Except Fault Report × Session :=
  if showPostfix then
    match session.compile text with
    | (.ok tokens, next) => runResult [postfixLine text tokens] next text
    | (.error fault, next) => (reportFault [] text fault, next)
  else runResult [] session text

/-- Evaluates texts one after another. -/
def runTexts (showPostfix : Bool) (session : Session) : List String → Except Fault Report
  | [] => .ok .empty
  | text :: texts => do
    let (report, next) := runText showPostfix session text
    return (← report).append (← runTexts showPostfix next texts)

/-- The session of a request. -/
def Request.session (request : Request) : Session :=
  let session := Session.start .shipped none (some request.divisionRaises)
  (session.setVariables (request.bindings.map fun binding => (binding.name, .float binding.value)) false).2

/-- Evaluates the texts of a request. -/
def run (request : Request) : Except Fault Report :=
  runTexts request.showPostfix request.session request.expressions

end Formula.CommandLine
