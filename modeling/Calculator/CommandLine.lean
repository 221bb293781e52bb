import Calculator.CommandLine.Directory
import Calculator.CommandLine.Options
import Calculator.Session
import Calculator.Text.Lines

/-!
# The command line

Statements come from a file, all of them in one session, or from the standard input one
line after the other. A terminal is shown a prompt before each line, the one past the end
included. The exit code tells whether a statement of a file failed. A path that leads to
something else than a file, or nowhere, ends the program before the first statement.
-/

namespace Calculator.CommandLine

/-- The line that shows how the program is called. -/
def usage : String :=
  "usage: reckon [-h] [--debug] [--emit-ast] [--prompt PROMPT] [input]\n"

def helpText : String :=
  usage ++ "
reckon — arithmetic expressions with let-bound variables

positional arguments:
  input            File of statements, one per line (default: read stdin
                   interactively)

options:
  -h, --help       show this help message and exit
  --debug          Print interpreter phase info to stderr
  --emit-ast       Print each statement's parsed AST as JSON instead of
                   evaluating it
  --prompt PROMPT  Prompt shown before each interactive statement (default: '>
                   ')
"

/-- What the program leaves behind. -/
structure Outcome where
  code : Nat
  output : String
  log : String
  deriving DecidableEq, Repr

/-- The outcome of arguments that ask for no statements. -/
def Stop.outcome : Stop → Outcome
  | help => ⟨0, helpText, ""⟩
  | refused error => ⟨2, "", usage ++ "reckon: error: " ++ error.message ++ "\n"⟩

def missingFile (name : String) : Outcome :=
  ⟨1, "", "[reckon] Error: Input file not found: " ++ Text.quoted name ++ "\n"⟩

def runFile (settings : Settings) (text : String) : Outcome :=
  let (_, transcript) :=
    (Session.start settings.debug).runLines settings.showTree (Text.fileLines text)
  ⟨if transcript.failures = 0 then 0 else 1, transcript.output, transcript.log⟩

/-- The prompt as it is shown: only on a terminal. -/
def shownPrompt (settings : Settings) (terminal : Bool) : String :=
  if terminal then settings.prompt else ""

/-- What a session writes for the lines of a stream, with a prompt before each read and
before the read that meets the end. -/
def runStream (settings : Settings) (terminal : Bool) (session : Session)
    (lines : List String) : Transcript :=
  let prompt : Transcript := ⟨0, shownPrompt settings terminal, ""⟩
  let (_, written) :=
    lines.foldl (fun (session, before) line =>
        let (next, transcript) := session.runLine settings.showTree line
        (next, before ++ prompt ++ transcript))
      (session, .empty)
  written ++ prompt

/-- The name of the input file; an empty name stands for none. -/
def Settings.file? (settings : Settings) : Option String :=
  settings.input.filter (· ≠ "")

/-- What the program reads. -/
structure Surroundings where
  input : String
  terminal : Bool
  directory : Directory

/-- The outcome of the program; a path that cannot be followed leaves none. -/
def run (surroundings : Surroundings) (arguments : List String) : Except PathError Outcome :=
  match readArguments arguments with
  | .error stop => .ok stop.outcome
  | .ok settings =>
    match settings.file? with
    | some path =>
      match surroundings.directory.read? path with
      | .error error => .error error
      | .ok none => .ok (missingFile path)
      | .ok (some text) => .ok (runFile settings text)
    | none =>
      let transcript :=
        runStream settings surroundings.terminal (.start settings.debug)
          (Text.streamLines surroundings.input)
      .ok ⟨0, transcript.output, transcript.log⟩

end Calculator.CommandLine
