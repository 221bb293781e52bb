import Calculator.CommandLine

/-!
# The program

Reads the arguments, then a file at once or the standard input line by line. All that is
written is computed by the modules below; this one only passes texts on.
-/

namespace Calculator.CommandLine

/-- Writes an outcome and gives its exit code. -/
def report (outcome : Outcome) : IO UInt32 := do
  (← IO.getStdout).putStr outcome.output
  (← IO.getStderr).putStr outcome.log
  return outcome.code.toUInt32

/-- Runs the lines of the standard input until it ends. -/
partial def converse (settings : Settings) (terminal : Bool) (session : Session) : IO Unit := do
  let output ← IO.getStdout
  output.putStr (shownPrompt settings terminal)
  output.flush
  let line ← (← IO.getStdin).getLine
  unless line.isEmpty do
    let (next, transcript) := session.runLine settings.showTree line
    output.putStr transcript.output
    (← IO.getStderr).putStr transcript.log
    converse settings terminal next

end Calculator.CommandLine

open Calculator CommandLine in
def main (arguments : List String) : IO UInt32 := do
  match readArguments arguments with
  | .error stop => report stop.outcome
  | .ok settings =>
    match settings.file? with
    | some name =>
      match ← (IO.FS.readFile name).toBaseIO with
      | .ok text => report (runFile settings text)
      | .error (.noFileOrDirectory ..) => report (missingFile name)
      | .error error => throw error
    | none =>
      converse settings (← (← IO.getStdin).isTty) (.start settings.debug)
      return 0
