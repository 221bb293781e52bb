import Calculator.Text.Digit
import Calculator.Text.Quoted

/-!
# Command line arguments

An argument is an option, a file name, or the mark after which no options follow. A long
option may be abbreviated as long as no other one begins alike, and may carry its value
after an equals sign. What looks like a negative number or holds a space is no option.
The first name is the input; all names after it are in excess.
-/

namespace Calculator.CommandLine

inductive Switch where
  | help
  | debug
  | showTree
  | prompt
  deriving DecidableEq, Repr

namespace Switch

def long : Switch → String
  | help => "--help"
  | debug => "--debug"
  | showTree => "--emit-ast"
  | prompt => "--prompt"

/-- The spellings under which an option appears in a message. -/
def spellings : Switch → String
  | help => "-h/--help"
  | switch => switch.long

def all : List Switch :=
  [help, debug, showTree, prompt]

end Switch

/-- The text that an argument carries beside the option: a value after an equals sign, or
what follows the letter of a short option. -/
inductive Attachment where
  | none
  | value (text : List Char)
  | cluster (text : List Char)
  deriving DecidableEq, Repr

inductive Word where
  | name (text : String)
  | switch (switch : Switch) (attachment : Attachment)
  | unknown (text : String)
  deriving DecidableEq, Repr

inductive UsageError where
  | ambiguous (text : String) (candidates : List Switch)
  | valueMissing (switch : Switch)
  | valueRefused (switch : Switch) (text : List Char)
  | unrecognized (texts : List String)
  deriving DecidableEq, Repr

def UsageError.message : UsageError → String
  | ambiguous text candidates =>
    "ambiguous option: " ++ text ++ " could match "
      ++ String.intercalate ", " (candidates.map Switch.long)
  | valueMissing switch => "argument " ++ switch.spellings ++ ": expected one argument"
  | valueRefused switch text =>
    "argument " ++ switch.spellings ++ ": ignored explicit argument "
      ++ Text.quoted (String.ofList text)
  | unrecognized texts => "unrecognized arguments: " ++ String.intercalate " " texts

/-! ### What an argument is -/

/-- Whether a text is a minus sign with digits after it, among which a point may stand
if a digit follows it. A line feed may end the text. -/
def looksNegative (text : List Char) : Bool :=
  match text with
  | '-' :: rest =>
    let rest := if rest.getLast? = some '\n' then rest.dropLast else rest
    let whole := rest.takeWhile Text.isAnyDigit
    match rest.dropWhile Text.isAnyDigit with
    | [] => !whole.isEmpty
    | '.' :: fraction => !fraction.isEmpty && fraction.all Text.isAnyDigit
    | _ => false
  | _ => false

/-- An argument that begins with a minus sign and is no option. -/
def nameOrUnknown (text : List Char) : Word :=
  if looksNegative text || text.contains ' ' then .name (String.ofList text)
  else .unknown (String.ofList text)

def splitEquals (text : List Char) : List Char × Attachment :=
  match text.dropWhile (· != '=') with
  | [] => (text, .none)
  | _ :: value => (text.takeWhile (· != '='), .value value)

/-- Recognises an option by its long spelling or the beginning of it. -/
def recognizeLong (text : List Char) : Except UsageError Word :=
  let (spelling, attachment) := splitEquals text
  match Switch.all.filter fun switch => switch.long.toList = spelling with
  | switch :: _ => .ok (.switch switch attachment)
  | [] =>
    match Switch.all.filter fun switch => spelling.isPrefixOf switch.long.toList with
    | [] => .ok (nameOrUnknown text)
    | [switch] => .ok (.switch switch attachment)
    | candidates => .error (.ambiguous (String.ofList text) candidates)

/-- Recognises an argument before the mark that ends the options. -/
def recognize (argument : String) : Except UsageError Word :=
  match argument.toList with
  | '-' :: '-' :: rest => recognizeLong ('-' :: '-' :: rest)
  | ['-', 'h'] => .ok (.switch .help .none)
  | '-' :: 'h' :: '=' :: text => .ok (.switch .help (.cluster text))
  | '-' :: 'h' :: rest => .ok (.switch .help (.cluster rest))
  | '-' :: c :: rest => .ok (nameOrUnknown ('-' :: c :: rest))
  | _ => .ok (.name argument)

def recognizeAll : List String → Except UsageError (List Word)
  | [] => .ok []
  | argument :: rest =>
    match recognize argument with
    | .error error => .error error
    | .ok word =>
      match recognizeAll rest with
      | .error error => .error error
      | .ok words => .ok (word :: words)

/-! ### What the arguments ask for -/

structure Settings where
  input : Option String
  debug : Bool
  showTree : Bool
  prompt : String
  excess : List String
  deriving DecidableEq, Repr

namespace Settings

def default : Settings :=
  ⟨none, false, false, "> ", []⟩

/-- Takes a name as the input if there is none yet. -/
def addName (settings : Settings) (name : String) : Settings :=
  match settings.input with
  | none => { settings with input := some name }
  | some _ => { settings with excess := settings.excess ++ [name] }

/-- Keeps arguments that nothing asks for. -/
def addExcess (settings : Settings) (texts : List String) : Settings :=
  { settings with excess := settings.excess ++ texts }

end Settings

/-- A request that ends the reading of the arguments. -/
inductive Stop where
  | help
  | refused (error : UsageError)
  deriving DecidableEq, Repr

/-- A help option with a text after its letter. Each letter is to be an option by itself,
and help is the only one; whatever else follows is taken for a value, and help has none. -/
def helpCluster : List Char → Stop
  | ['h'] => .help
  | 'h' :: c :: rest => helpCluster (c :: rest)
  | text => .refused (.valueRefused .help text)

/-- The prompt that a value after an equals sign asks for. The mark that ends the options
is dropped from the values of an option, and the empty list that is left is shown. -/
def attachedPrompt (value : List Char) : String :=
  if value = ['-', '-'] then "[]" else String.ofList value

def Word.isName : Word → Bool
  | name _ => true
  | _ => false

def Word.text? : Word → Option String
  | name text => some text
  | _ => none

/-- Obeys words up to the last option, and gives the names after it. -/
def obey (settings : Settings) : List Word → Except Stop (Settings × List String)
  | [] => .ok (settings, [])
  | .name text :: words =>
    if words.all Word.isName then .ok (settings, text :: words.filterMap Word.text?)
    else obey (settings.addName text) words
  | .unknown text :: words => obey (settings.addExcess [text]) words
  | .switch .help .none :: _ => .error .help
  | .switch .help (.cluster text) :: _ => .error (helpCluster text)
  | .switch .prompt (.value text) :: words =>
    obey { settings with prompt := attachedPrompt text } words
  | .switch .prompt _ :: .name text :: words => obey { settings with prompt := text } words
  | .switch .prompt _ :: _ => .error (.refused (.valueMissing .prompt))
  | .switch .debug .none :: words => obey { settings with debug := true } words
  | .switch .showTree .none :: words => obey { settings with showTree := true } words
  | .switch switch (.value text) :: _ | .switch switch (.cluster text) :: _ =>
    .error (.refused (.valueRefused switch text))

/-- Takes the names at the end. The mark before the last names is dropped with the input
that it stands beside; elsewhere it is in excess. -/
def finish (settings : Settings) (names : List String) (marked : Option (List String)) :
    Settings :=
  match settings.input, names, marked with
  | none, [], none => settings
  | none, [], some [] => settings
  | none, [], some (name :: rest) => (settings.addName name).addExcess rest
  | none, [name], some rest => (settings.addName name).addExcess rest
  | none, name :: names, none => (settings.addName name).addExcess names
  | none, name :: names, some rest => (settings.addName name).addExcess (names ++ "--" :: rest)
  | some _, names, none => settings.addExcess names
  | some _, names, some rest => settings.addExcess (names ++ "--" :: rest)

/-- Splits arguments at the mark after which no options follow. -/
def splitMark : List String → List String × Option (List String)
  | [] => ([], none)
  | argument :: rest =>
    if argument = "--" then ([], some rest)
    else
      let (before, after) := splitMark rest
      (argument :: before, after)

def readArguments (arguments : List String) : Except Stop Settings :=
  let (before, after) := splitMark arguments
  match recognizeAll before with
  | .error error => .error (.refused error)
  | .ok words =>
    match obey .default words with
    | .error stop => .error stop
    | .ok (settings, names) =>
      let settings := finish settings names after
      if settings.excess = [] then .ok settings
      else .error (.refused (.unrecognized settings.excess))

end Calculator.CommandLine
