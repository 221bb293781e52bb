import Calculator.Evaluation
import Calculator.Expr.Json
import Calculator.Expr.Reading
import Calculator.Token.Scan

/-!
# Statements

A statement is scanned, read and then evaluated, or shown as a tree. The environment
changes only when the whole statement succeeds as an assignment. Each run also leaves a
trace of its phases.
-/

namespace Calculator

/-- The phase in which a statement failed, with the cause. -/
inductive StatementError where
  | scanning (error : Token.ScanError)
  | reading (error : ParseError)
  | evaluating (fault : Fault)
  deriving DecidableEq, Repr

def StatementError.message : StatementError → String
  | scanning error => error.message
  | reading error => error.message
  | evaluating fault => fault.message

/-- Whether a failure is reported as one of the statement. Any other one ends the program. -/
def StatementError.isReported : StatementError → Bool
  | scanning _ => true
  | reading error => !error.isStackFault
  | evaluating fault => fault.isOfStatement

/-- What a statement answers: its value, or the text of its tree. -/
inductive Answer where
  | value (result : Value)
  | tree (json : String)
  deriving DecidableEq, Repr

def Answer.text : Answer → String
  | value result => result.text
  | tree json => json

/-- A run of a statement: the answer, which a blank statement has not, the environment
after it, and the trace of the phases. -/
structure Run where
  result : Except StatementError (Option Answer)
  environment : Environment
  trace : List String

namespace Statement

def tree? (source : String) : Except StatementError (Option Expr) :=
  match Token.scan source with
  | .error error => .error (.scanning error)
  | .ok tokens =>
    match Expr.ofTokens tokens with
    | .error error => .error (.reading error)
    | .ok expr => .ok expr

/-- The trace up to the tree. -/
def readingTrace (source : String) : List String :=
  "Phase 1: Lexical analysis" ::
    match Token.scan source with
    | .error _ => []
    | .ok tokens =>
      ["  " ++ toString tokens.length ++ " tokens produced", "Phase 2: Parsing"]

/-- Runs a tree: evaluates it, or shows it and leaves the environment alone. -/
def runTree (env : Environment) (showTree : Bool) (expr : Expr) : Run :=
  let root := "  root is " ++ expr.kindName
  if showTree then ⟨.ok (some (.tree expr.json)), env, [root]⟩
  else
    match expr.execute env with
    | .error fault => ⟨.error (.evaluating fault), env, [root, "Phase 3: Evaluation"]⟩
    | .ok (value, env) =>
      ⟨.ok (some (.value value)), env,
        [root, "Phase 3: Evaluation", "  result is " ++ value.kindName]⟩

def run (env : Environment) (showTree : Bool) (source : String) : Run :=
  match tree? source with
  | .error error => ⟨.error error, env, readingTrace source⟩
  | .ok none => ⟨.ok none, env, readingTrace source ++ ["  empty statement"]⟩
  | .ok (some expr) =>
    let run := runTree env showTree expr
    ⟨run.result, run.environment, readingTrace source ++ run.trace⟩

end Statement

/-- The trace as it is logged, one line for each entry, when logging is on. -/
def Run.log (run : Run) (debug : Bool) : String :=
  if debug then String.join (run.trace.map fun entry => "[reckon] " ++ entry ++ "\n") else ""

end Calculator
