import Calculator.CommandLine
import Calculator.Proofs.Statement.Lines
import Calculator.Proofs.Text.Lines

/-!
# Statements from a file and from a stream

A session cares for its lines only as far as they say something: blanks around a statement, and
lines without one, change nothing. A file and a stream run their lines in the same way, so that a
text does the same in both as soon as its lines say the same statements. A stream ends its lines
at line feeds only, while a file ends them at other blanks too, which a statement may hold.

## Main result

`file_runs_like_stream_unless_split`: a file and a stream with the same text write the same if no
statement of the stream holds a line end, and only then they have the same statements.
-/

namespace Calculator

/-! ### What lines say -/

/-- The statements of lines, without the blank ones. -/
def statements (lines : List String) : List String :=
  (lines.map statementOf).filter (· ≠ "")

private theorem statements_map_ofList (lines : List (List Char)) :
    statements (lines.map String.ofList)
      = ((lines.map Text.strip).filter (· ≠ [])).map String.ofList := by
  have blank (s : List Char) : String.ofList s = "" ↔ s = [] := by
    rw [← String.toList_inj, String.toList_ofList]
    rfl
  simp only [statements, List.map_map, List.filter_map, Function.comp_def, statementOf,
    String.toList_ofList, ne_eq, blank]

namespace Text

private theorem statements_fileLines (text : String) :
    statements (fileLines text)
      = (pieces (lineEnds.contains ·) (unifyLineFeeds text.toList)).map String.ofList := by
  rw [fileLines, statements_map_ofList, ← pieces_eq_splitLines]

private theorem statements_streamLines (text : String) :
    statements (streamLines text) = (pieces (· == '\n') text.toList).map String.ofList := by
  rw [streamLines, statements_map_ofList, ← pieces_eq_splitLines]

/-- A text has the same statements in a file and on a stream exactly when no statement of the
stream holds a line end. -/
theorem statements_eq_iff (text : String) :
    statements (fileLines text) = statements (streamLines text) ↔
      ∀ statement ∈ statements (streamLines text), ∀ c ∈ statement.toList, c ∉ lineEnds := by
  have injective : Function.Injective String.ofList := fun _ _ => String.ofList_inj.mp
  rw [statements_fileLines, statements_streamLines, (List.map_injective_iff.mpr injective).eq_iff,
    pieces_lineEnds_eq_iff]
  simp

end Text

namespace Session

variable (session : Session) (showTree : Bool)

theorem runLine_statementOf (line : String) :
    session.runLine showTree (statementOf line) = session.runLine showTree line := by
  simp only [runLine, statementOf, String.toList_ofList, Text.strip_strip]

theorem runLine_of_blank {line : String} (blank : statementOf line = "") :
    session.runLine showTree line = (session, .empty) := by
  rw [runLine, ← statementOf, if_pos blank]

/-- Lines do what their statements do. -/
theorem runLines_statements (lines : List String) :
    session.runLines showTree (statements lines) = session.runLines showTree lines := by
  induction lines generalizing session with
  | nil => rfl
  | cons line rest ih =>
    by_cases blank : statementOf line = ""
    · have skipped : statements (line :: rest) = statements rest := by
        simp [statements, blank]
      rw [skipped, ih, runLines_cons, runLine_of_blank session showTree blank]
      simp [Transcript.empty_append, Prod.map]
    · -- A statement is its own statement: stripping it again changes nothing.
      have kept : statements (line :: rest) = statementOf line :: statements rest := by
        simp [statements, blank]
      rw [kept, runLines_cons, runLines_cons, runLine_statementOf, ih]

end Session

namespace CommandLine

/-! ### Files and streams -/

/-- Without a terminal, lines that arrive one by one are run like lines at once. -/
theorem runStream_eq_runLines (settings : Settings) (session : Session) (lines : List String) :
    runStream settings false session lines = (session.runLines settings.showTree lines).2 := by
  have silent : (⟨0, shownPrompt settings false, ""⟩ : Transcript) = .empty := rfl
  simp only [runStream, silent, Transcript.append_empty]
  rfl

def written (showTree debug : Bool) (sources : List String) : Transcript :=
  ((Session.start debug).runLines showTree sources).2

/-! ### Arguments -/

def flags (showTree debug : Bool) : List String :=
  (if showTree then ["--emit-ast"] else []) ++ (if debug then ["--debug"] else [])

/-- An argument that names an input. -/
structure NamesInput (path : String) : Prop where
  nonempty : path ≠ ""
  name : recognize path = .ok (.name path)

private theorem NamesInput.ne_mark {path : String} (named : NamesInput path) : path ≠ "--" := by
  rintro rfl
  cases named.name

private theorem recognize_showTree : recognize "--emit-ast" = .ok (.switch .showTree .none) := rfl

private theorem recognize_debug : recognize "--debug" = .ok (.switch .debug .none) := rfl

private theorem readArguments_flags (showTree debug : Bool) :
    readArguments (flags showTree debug) = .ok ⟨none, debug, showTree, "> ", []⟩ := by
  cases showTree <;> cases debug <;>
    simp [readArguments, flags, splitMark, recognizeAll, recognize_showTree, recognize_debug,
      obey, finish, Settings.default]

private theorem readArguments_flags_name {path : String} (named : NamesInput path)
    (showTree debug : Bool) :
    readArguments (flags showTree debug ++ [path])
      = .ok ⟨some path, debug, showTree, "> ", []⟩ := by
  -- The name stands behind all options, so that they are obeyed before it is taken.
  cases showTree <;> cases debug <;>
    simp [readArguments, flags, splitMark, named.ne_mark, recognizeAll, recognize_showTree,
      recognize_debug, named.name, obey, finish, Settings.default, Settings.addName,
      Settings.addExcess]

/-! ### Outcomes -/

section Outcomes

variable {path text : String} {directory : Directory}

/-- A file is run as its statements are, and the exit code tells whether one of them failed. -/
theorem run_file (named : NamesInput path) (present : directory.read? path = .ok (some text))
    (input : String) (terminal showTree debug : Bool) :
    run ⟨input, terminal, directory⟩ (flags showTree debug ++ [path])
      = .ok ⟨if (written showTree debug (statements (Text.fileLines text))).failures = 0 then 0
          else 1,
        (written showTree debug (statements (Text.fileLines text))).output,
        (written showTree debug (statements (Text.fileLines text))).log⟩ := by
  have file : Settings.file? ⟨some path, debug, showTree, "> ", []⟩ = some path := by
    simp [Settings.file?, named.nonempty]
  simp only [run, readArguments_flags_name named, file, present, runFile, written,
    Session.runLines_statements]

/-- A stream is run as its statements are, and no failure shows in the exit code. -/
theorem run_stream (text : String) (directory : Directory) (showTree debug : Bool) :
    run ⟨text, false, directory⟩ (flags showTree debug)
      = .ok ⟨0, (written showTree debug (statements (Text.streamLines text))).output,
        (written showTree debug (statements (Text.streamLines text))).log⟩ := by
  have stream : Settings.file? ⟨none, debug, showTree, "> ", []⟩ = none := rfl
  simp only [run, readArguments_flags, stream, runStream_eq_runLines, written,
    Session.runLines_statements]

/-- A file and a stream with the same text write the same if they have the same statements, and
they have them exactly when no statement of the stream holds a line end. -/
theorem file_runs_like_stream_unless_split (named : NamesInput path)
    (present : directory.read? path = .ok (some text)) (input : String) (terminal : Bool)
    (elsewhere : Directory) (showTree debug : Bool) :
    ∃ file stream : Outcome,
      run ⟨input, terminal, directory⟩ (flags showTree debug ++ [path]) = .ok file ∧
      run ⟨text, false, elsewhere⟩ (flags showTree debug) = .ok stream ∧
      stream.code = 0 ∧ (file.code = 0 ∨ file.code = 1) ∧
      (statements (Text.fileLines text) = statements (Text.streamLines text) →
        file.output = stream.output ∧ file.log = stream.log) ∧
      (statements (Text.fileLines text) = statements (Text.streamLines text) ↔
        ∀ statement ∈ statements (Text.streamLines text), ∀ c ∈ statement.toList,
          c ∉ Text.lineEnds) := by
  refine ⟨_, _, run_file named present input terminal showTree debug,
    run_stream text elsewhere showTree debug, rfl, ?_, ?_, Text.statements_eq_iff text⟩
  · split
    · exact .inl rfl
    · exact .inr rfl
  · intro same
    rw [same]
    exact ⟨rfl, rfl⟩

end Outcomes

/-- Two statements with line ends of all kinds around them. -/
def widelySpaced : String :=
  "x = 2\r\n\x0c x ^ 3\x0b\n\u2028"

theorem widelySpaced_runs_alike :
    ∃ file stream : Outcome,
      run ⟨"", true, ⟨[("f.rk", widelySpaced)]⟩⟩ ["--debug", "f.rk"] = .ok file ∧
      run ⟨widelySpaced, false, ⟨[]⟩⟩ ["--debug"] = .ok stream ∧
      file.output = stream.output ∧ file.log = stream.log := by
  have named : NamesInput "f.rk" := ⟨by decide, rfl⟩
  have present : Directory.read? ⟨[("f.rk", widelySpaced)]⟩ "f.rk" = .ok (some widelySpaced) := rfl
  have sources : statements (Text.streamLines widelySpaced) = ["x = 2", "x ^ 3"] := rfl
  have whole : ∀ statement ∈ statements (Text.streamLines widelySpaced),
      ∀ c ∈ statement.toList, c ∉ Text.lineEnds := by
    simp [sources, Text.lineEnds]
  obtain ⟨file, stream, fileRun, streamRun, _, _, agree, same⟩ :=
    file_runs_like_stream_unless_split named present "" true ⟨[]⟩ false true
  exact ⟨file, stream, fileRun, streamRun, agree (same.mpr whole)⟩

/-- A form feed within a difference makes two statements of a file and one of a stream. -/
theorem difference_is_split_in_file :
    run ⟨"", false, ⟨[("f.rk", "2\x0c-1\n")]⟩⟩ ["f.rk"] = .ok ⟨0, "2\n-1\n", ""⟩ ∧
    run ⟨"2\x0c-1\n", false, ⟨[]⟩⟩ [] = .ok ⟨0, "1\n", ""⟩ :=
  ⟨by decide +kernel, by decide +kernel⟩

end CommandLine

end Calculator
