import Formula.CommandLine.Report

/-!
# The program

Reads the arguments, evaluates the texts among them and writes the report.
-/

namespace Formula.CommandLine

/-- What is shown when help is asked for. -/
def usage : String :=
  "usage: formula [-h] [--var NAME=VALUE] [--no-division-exception] [--postfix] [--log-level LOG_LEVEL] expressions ..."

/-- Messages about texts that went wrong are written at this level and those below it. -/
def showsMessages (logLevel : Option String) : Bool :=
  let level := (logLevel.getD "WARNING").toUpper
  level != "CRITICAL" && level != "FATAL"

end Formula.CommandLine

open Formula.CommandLine in
/-- Evaluates the texts on the command line. -/
def main (arguments : List String) : IO UInt32 := do
  match readArguments arguments with
  | .help =>
    IO.println usage
    return 0
  | .refused fault =>
    IO.eprintln usage
    IO.eprintln s!"formula: error: {fault.message}"
    return 2
  | .emptyBinding before =>
    IO.eprintln (emptyBindingMessage before)
    return 1
  | .request request =>
    match run request with
    | .error fault =>
      IO.eprintln fault.message
      return 1
    | .ok report =>
      report.events.forM fun
        | .line text => IO.println text
        | .message text => do if showsMessages request.logLevel then IO.eprintln s!"ERROR {text}"
      return UInt32.ofNat report.status
