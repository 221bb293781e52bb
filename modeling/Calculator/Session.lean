import Calculator.Statement
import Calculator.Text.Blank

/-!
# Sessions

A session runs statements one after the other in one environment. Lines are statements;
a line that fails is reported and the next one runs. Output and log are separate texts.

A failure for which no statement is to blame ends the program, which `runLineOrStop` says;
`runLine` reports it like every other one. The two are the same while the integers of the
environment have a nearest real.
-/

namespace Calculator

/-- The environment of a session, and whether the phases of its statements are logged. -/
structure Session where
  environment : Environment
  debug : Bool

/-- What a sequence of lines wrote, and how many of them failed. -/
structure Transcript where
  failures : Nat
  output : String
  log : String
  deriving DecidableEq, Repr

namespace Transcript

def empty : Transcript :=
  ⟨0, "", ""⟩

def append (a b : Transcript) : Transcript :=
  ⟨a.failures + b.failures, a.output ++ b.output, a.log ++ b.log⟩

instance : Append Transcript :=
  ⟨append⟩

end Transcript

/-- What one statement of a session did: the text to show, if any, the log, and the
session after it. -/
structure Step where
  shown : Except StatementError (Option String)
  log : String
  session : Session

namespace Session

def start (debug : Bool) : Session :=
  ⟨.empty, debug⟩

/-- Runs a statement. An empty text is not shown. -/
def execute (session : Session) (showTree : Bool) (source : String) : Step :=
  let run := Statement.run session.environment showTree source
  let shown :=
    match run.result with
    | .error error => .error error
    | .ok none => .ok none
    | .ok (some answer) => .ok (if answer.text = "" then none else some answer.text)
  ⟨shown, run.log session.debug, ⟨run.environment, session.debug⟩⟩

/-- Runs a line: a blank one does nothing, and a failing one is reported in the log, whatever
the cause. -/
def runLine (session : Session) (showTree : Bool) (line : String) : Session × Transcript :=
  let statement := String.ofList (Text.strip line.toList)
  if statement = "" then (session, .empty)
  else
    let step := session.execute showTree statement
    match step.shown with
    | .error error =>
      (step.session, ⟨1, "", step.log ++ statement ++ ": " ++ error.message ++ "\n"⟩)
    | .ok none => (step.session, ⟨0, "", step.log⟩)
    | .ok (some text) => (step.session, ⟨0, text ++ "\n", step.log⟩)

def runLines (session : Session) (showTree : Bool) (lines : List String) :
    Session × Transcript :=
  lines.foldl (fun (session, before) line =>
      let (next, transcript) := session.runLine showTree line
      (next, before ++ transcript))
    (session, .empty)

/-- Runs a line, and stops the program at a failure that is not reported. -/
def runLineOrStop (session : Session) (showTree : Bool) (line : String) :
    Except StatementError (Session × Transcript) :=
  let statement := String.ofList (Text.strip line.toList)
  if statement = "" then .ok (session, .empty)
  else
    match (session.execute showTree statement).shown with
    | .error error =>
      if error.isReported then .ok (session.runLine showTree line) else .error error
    | .ok _ => .ok (session.runLine showTree line)

/-- Runs lines one after the other, up to a failure that is not reported. -/
def runLinesOrStop (session : Session) (showTree : Bool) (lines : List String) :
    Except StatementError (Session × Transcript) :=
  lines.foldlM (fun (session, before) line =>
      (session.runLineOrStop showTree line).map fun (next, transcript) =>
        (next, before ++ transcript))
    (session, .empty)

end Session

end Calculator
