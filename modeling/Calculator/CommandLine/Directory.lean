import Calculator.Text.Quoted

/-!
# The working directory

A path is followed one component after the other, beginning in the working directory or,
if it begins with a slash, outside it. The working directory holds files only. Of the
directories outside it nothing is known, so that no name is found there.
-/

namespace Calculator.CommandLine

/-- The files of the working directory, each with its text. -/
structure Directory where
  files : List (String × String)
  deriving DecidableEq, Repr

/-- Why a path cannot be followed to a file or to its absence. -/
inductive PathFault where
  | notDirectory
  | isDirectory
  | nameTooLong
  | nullCharacter
  deriving DecidableEq, Repr

structure PathError where
  path : String
  fault : PathFault
  deriving DecidableEq, Repr

def PathError.message (error : PathError) : String :=
  let path := Text.quoted error.path
  match error.fault with
  | .notDirectory => "[Errno 20] Not a directory: " ++ path
  | .isDirectory => "[Errno 21] Is a directory: " ++ path
  | .nameTooLong => "[Errno 36] File name too long: " ++ path
  | .nullCharacter => "embedded null byte"

/-- The largest number of bytes of a component. -/
def longestComponent : Nat := 255

/-- The largest number of bytes of a path. -/
def longestPath : Nat := 4095

/-- The components of a path. A slash at an end of it has an empty component beside it. -/
def components : List Char → List (List Char)
  | [] => [[]]
  | c :: rest =>
    if c = '/' then [] :: components rest
    else
      match components rest with
      | [] => [[c]]
      | name :: names => (c :: name) :: names

/-- Where a path has led so far. -/
inductive Place where
  | inside
  | outside
  | file (text : String)
  deriving DecidableEq, Repr

namespace Directory

/-- Follows one component from a directory; a name may be missing there. -/
def enter (directory : Directory) (place : Place) (component : List Char) :
    Except PathFault (Option Place) :=
  let name := String.ofList component
  match place with
  | .file _ => .error .notDirectory
  | .inside | .outside =>
    if name = "" ∨ name = "." then .ok (some place)
    else if name = ".." then .ok (some .outside)
    else if longestComponent < name.utf8ByteSize then .error .nameTooLong
    else if place = .outside then .ok none
    else .ok ((directory.files.lookup name).map .file)

/-- Follows components until one of them is missing. -/
def follow (directory : Directory) (place : Place) :
    List (List Char) → Except PathFault (Option Place)
  | [] => .ok (some place)
  | component :: rest =>
    match directory.enter place component with
    | .error fault => .error fault
    | .ok none => .ok none
    | .ok (some next) => directory.follow next rest

/-- The text of the file at a path, if there is one. -/
def read? (directory : Directory) (path : String) : Except PathError (Option String) :=
  let start : Place := if path.toList.head? = some '/' then .outside else .inside
  if path.toList.contains '\x00' then .error ⟨path, .nullCharacter⟩
  else if longestPath < path.utf8ByteSize then .error ⟨path, .nameTooLong⟩
  else
    match directory.follow start (components path.toList) with
    | .error fault => .error ⟨path, fault⟩
    | .ok none => .ok none
    | .ok (some (.file text)) => .ok (some text)
    | .ok (some _) => .error ⟨path, .isDirectory⟩

end Directory

end Calculator.CommandLine
