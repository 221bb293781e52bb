import Calculator.Proofs.Statement.Lines

/-!
# Thinned runs

A run of lines is thinned when some of its lines are left out. Lines that are blank, that fail, or
that succeed without an assignment at their root leave the session as it was; so do all lines
while trees are shown. Without them every other line has its turn in the same session as before,
and so it writes the same.

## Main result

`only_assignments_influence_a_run`: what a thinned run writes, where it ends, and how many of its
lines fail.

## Proof strategy

By induction on the lines, with the session as a parameter: a line that stays moves both runs to
the same session, and a line that is left out moves neither of them.
-/

namespace Calculator

/-- A line with the choice whether it stays in the run. -/
structure MarkedLine where
  text : String
  stays : Bool

/-- A line and the session in which its turn comes. -/
structure Turn where
  session : Session
  line : MarkedLine

def Session.turns (session : Session) (showTree : Bool) : List MarkedLine → List Turn
  | [] => []
  | line :: rest => ⟨session, line⟩ :: (session.runLine showTree line.text).1.turns showTree rest

namespace Turn

def statement (turn : Turn) : String :=
  statementOf turn.line.text

def transcript (showTree : Bool) (turn : Turn) : Transcript :=
  (turn.session.runLine showTree turn.line.text).2

/-- Whether the line is left out and fails. -/
def isLostFailure (showTree : Bool) (turn : Turn) : Bool :=
  !turn.line.stays && turn.session.fails showTree turn.line.text

/-- The line is blank, fails and is reported, or succeeds without an assignment at its root. -/
def IsIdle (turn : Turn) : Prop :=
  turn.statement = "" ∨
  (∃ error, (Statement.run turn.session.environment false turn.statement).result = .error error ∧
    error.isReported = true) ∨
  ∃ e answer, Statement.tree? turn.statement = .ok (some e) ∧ e.isAssignment = false ∧
    (Statement.run turn.session.environment false turn.statement).result = .ok answer

end Turn

namespace Session

/-- The line does not stop the run, and the session after it is the one before it. -/
def Passes (session : Session) (showTree : Bool) (line : String) : Prop :=
  session.runLineOrStop showTree line = .ok (session.runLine showTree line) ∧
    (session.runLine showTree line).1 = session

variable {session : Session} {showTree : Bool} {line : String}

/-- A run only stops at a failure that is not reported. -/
private theorem runLineOrStop_of_reported
    (reported : ∀ error, (Statement.run session.environment showTree (statementOf line)).result
      = .error error → error.isReported = true) :
    session.runLineOrStop showTree line = .ok (session.runLine showTree line) := by
  rw [runLineOrStop, ← statementOf]
  split
  · next blank => rw [runLine, ← statementOf, if_pos blank]
  · split
    · next error failed => rw [if_pos (reported error (result_of_shown_eq_error failed))]
    · rfl

private theorem runLineOrStop_cases (session : Session) (showTree : Bool) (line : String) :
    (∃ error, session.runLineOrStop showTree line = .error error) ∨
      session.runLineOrStop showTree line = .ok (session.runLine showTree line) := by
  cases result : session.runLineOrStop showTree line with
  | error error => exact .inl ⟨error, rfl⟩
  | ok run =>
    rw [runLineOrStop] at result
    split at result
    · next blank =>
      rw [runLine, if_pos blank]
      exact .inr result.symm
    · split at result
      · split at result
        · exact .inr result.symm
        · cases result
      · exact .inr result.symm

private theorem passes_of_isIdle {turn : Turn} (idle : turn.IsIdle) :
    turn.session.Passes false turn.line.text := by
  have effectless : Statement.Idle turn.session.environment false turn.statement := by
    rcases idle with blank | ⟨error, failed, _⟩ | ⟨e, _, tree, plain, _⟩
    · rw [blank]
      exact .inr (.inl (by decide +kernel))
    · exact .inl ⟨error, failed⟩
    · exact .inr (.inr (.inr ⟨e, tree, plain⟩))
  refine ⟨runLineOrStop_of_reported ?_, runLine_of_idle effectless⟩
  intro error failed
  change (Statement.run turn.session.environment false turn.statement).result = _ at failed
  rcases idle with blank | ⟨other, result, reported⟩ | ⟨_, answer, _, _, result⟩
  · rw [blank, (Statement.run_blank turn.session.environment false).1] at failed
    cases failed
  · rw [result] at failed
    cases failed
    exact reported
  · rw [result] at failed
    cases failed

/-- While trees are shown nothing is evaluated, and the fault is in the text. -/
theorem passes_of_showTree (session : Session) (line : String) : session.Passes true line := by
  refine ⟨runLineOrStop_of_reported ?_, runLine_of_idle (.inr (.inr (.inl rfl)))⟩
  intro error failed
  cases tree : Statement.tree? (statementOf line) with
  | error cause =>
    simp only [Statement.run, tree] at failed
    cases failed
    exact StatementError.isReported_of_isExpected (Statement.isExpected_of_tree tree)
  | ok read => cases read <;> simp [Statement.run, tree, Statement.runTree] at failed

/-! ### Runs and turns -/

/-- What a run writes is what its lines write at their turns. -/
theorem runLines_eq_turns (session : Session) (showTree : Bool) (lines : List MarkedLine) :
    (session.runLines showTree (lines.map MarkedLine.text)).2
      = ((session.turns showTree lines).map (Turn.transcript showTree)).foldr (· ++ ·) .empty := by
  induction lines generalizing session with
  | nil => rfl
  | cons line rest ih =>
    rw [List.map_cons, runLines_cons, Prod.map_snd, ih]
    rfl

private theorem failures_runLines_cons (session : Session) (showTree : Bool) (line : String)
    (lines : List String) :
    (session.runLines showTree (line :: lines)).2.failures
      = (if session.fails showTree line then 1 else 0)
        + ((session.runLine showTree line).1.runLines showTree lines).2.failures := by
  rw [runLines_cons, Prod.map_snd, Transcript.failures_append, failures_runLine]

/-- The session in which a run ends, unless it is stopped. -/
private theorem map_fst_runLinesOrStop (session : Session) (showTree : Bool) (lines : List String) :
    (session.runLinesOrStop showTree lines).map Prod.fst
      = lines.foldlM (fun session line => (runLineOrStop session showTree line).map Prod.fst)
        session := by
  have general : ∀ before : Transcript,
      (lines.foldlM (fun (state : Session × Transcript) line =>
          (state.1.runLineOrStop showTree line).map fun result =>
            (result.1, state.2 ++ result.2)) (session, before)).map Prod.fst
        = lines.foldlM (fun session line => (runLineOrStop session showTree line).map Prod.fst)
          session := by
    induction lines generalizing session with
    | nil => exact fun _ => rfl
    | cons line rest ih =>
      intro before
      simp only [List.foldlM_cons]
      cases session.runLineOrStop showTree line with
      | error error => rfl
      | ok result => exact ih result.1 (before ++ result.2)
  exact general .empty

/-- Every line that is left out passes at its turn. -/
inductive Thins (showTree : Bool) : Session → List MarkedLine → Prop
  | nil {session : Session} : Thins showTree session []
  | keep {session : Session} {line : MarkedLine} {rest : List MarkedLine}
      (stays : line.stays = true)
      (thins : Thins showTree (session.runLine showTree line.text).1 rest) :
      Thins showTree session (line :: rest)
  | drop {session : Session} {line : MarkedLine} {rest : List MarkedLine}
      (leaves : line.stays = false) (passes : session.Passes showTree line.text)
      (thins : Thins showTree session rest) : Thins showTree session (line :: rest)

namespace Thins

variable {lines : List MarkedLine}

private theorem of_passes (passes : ∀ turn ∈ session.turns showTree lines, turn.line.stays = false →
    turn.session.Passes showTree turn.line.text) : Thins showTree session lines := by
  induction lines generalizing session with
  | nil => exact .nil
  | cons line rest ih =>
    have later := ih fun turn member => passes turn (List.mem_cons_of_mem _ member)
    cases stays : line.stays with
    | true => exact .keep stays later
    | false =>
      have here := passes ⟨session, line⟩ List.mem_cons_self stays
      rw [here.2] at later
      exact .drop stays here later

/-- The lines that stay have their turns in the same sessions. -/
theorem turns_filter (thins : Thins showTree session lines) :
    session.turns showTree (lines.filter MarkedLine.stays)
      = (session.turns showTree lines).filter fun turn => turn.line.stays := by
  induction thins with
  | nil => rfl
  | keep stays _ ih => simp [turns, stays, ih]
  | drop leaves passes _ ih => simp [turns, leaves, passes.2, ih]

private theorem session_runLines (thins : Thins showTree session lines) :
    (session.runLines showTree ((lines.filter MarkedLine.stays).map MarkedLine.text)).1
      = (session.runLines showTree (lines.map MarkedLine.text)).1 := by
  induction thins with
  | nil => rfl
  | keep stays _ ih => simp [runLines_cons, stays, ih]
  | drop leaves passes _ ih => simp [runLines_cons, leaves, passes.2, ih]

private theorem failures_runLines (thins : Thins showTree session lines) :
    (session.runLines showTree (lines.map MarkedLine.text)).2.failures
      = (session.runLines showTree
          ((lines.filter MarkedLine.stays).map MarkedLine.text)).2.failures
        + (session.turns showTree lines).countP (Turn.isLostFailure showTree) := by
  induction thins with
  | nil => rfl
  | keep stays _ ih =>
    simp only [List.map_cons, failures_runLines_cons, ih, stays, List.filter_cons_of_pos, turns,
      Turn.isLostFailure, Bool.not_true, Bool.false_and, Bool.false_eq_true, not_false_eq_true,
      List.countP_cons_of_neg]
    omega
  | drop leaves passes _ ih =>
    simp only [List.map_cons, failures_runLines_cons, passes.2, ih, leaves, Bool.false_eq_true,
      not_false_eq_true, List.filter_cons_of_neg, turns, List.countP_cons, Turn.isLostFailure,
      Bool.not_false, Bool.true_and]
    omega

theorem runLinesOrStop (thins : Thins showTree session lines) :
    (session.runLinesOrStop showTree
        ((lines.filter MarkedLine.stays).map MarkedLine.text)).map Prod.fst
      = (session.runLinesOrStop showTree (lines.map MarkedLine.text)).map Prod.fst := by
  simp only [map_fst_runLinesOrStop]
  induction thins with
  | nil => rfl
  | @keep session line rest stays _ ih =>
    simp only [List.filter_cons, stays, if_true, List.map_cons, List.foldlM_cons]
    -- A line that stays may stop both runs; otherwise they go on from the same session.
    rcases runLineOrStop_cases session showTree line.text with ⟨error, stopped⟩ | passed
    · rw [stopped]
      rfl
    · rw [passed]
      exact ih
  | @drop session line rest leaves passes _ ih =>
    simp only [List.filter_cons, leaves, Bool.false_eq_true, if_false, List.map_cons,
      List.foldlM_cons, passes.1]
    rw [ih]
    simp only [Except.map, passes.2]
    rfl

end Thins

end Session

/-- Lines that are blank, that fail, or that succeed without an assignment at their root can be
left out of a run, and any lines while trees are shown. The lines that stay write what they write
in the whole run, and nothing else is written; the runs end in the same session, or stop for the
same failure; and the number of failures falls by that of the failing lines that are left out. -/
theorem only_assignments_influence_a_run (session : Session) (showTree : Bool)
    (lines : List MarkedLine)
    (idle : showTree = true ∨
      ∀ turn ∈ session.turns showTree lines, turn.line.stays = false → turn.IsIdle) :
    let all := lines.map MarkedLine.text
    let rest := (lines.filter MarkedLine.stays).map MarkedLine.text
    let written := ((session.turns showTree lines).filter fun turn => turn.line.stays).map
      (Turn.transcript showTree)
    (session.turns showTree (lines.filter MarkedLine.stays)).map (Turn.transcript showTree)
      = written ∧
    (session.runLines showTree rest).2 = written.foldr (· ++ ·) .empty ∧
    (session.runLines showTree rest).1 = (session.runLines showTree all).1 ∧
    (session.runLines showTree all).2.failures = (session.runLines showTree rest).2.failures
      + (session.turns showTree lines).countP (Turn.isLostFailure showTree) ∧
    (session.runLinesOrStop showTree rest).map Prod.fst
      = (session.runLinesOrStop showTree all).map Prod.fst := by
  have thins : Session.Thins showTree session lines := by
    apply Session.Thins.of_passes
    intro turn member leaves
    cases showTree with
    | true => exact Session.passes_of_showTree turn.session turn.line.text
    | false =>
      rcases idle with shown | idle
      · cases shown
      · exact Session.passes_of_isIdle (idle turn member leaves)
  -- The lines that stay have the same turns in both runs, and a run writes what its turns write.
  have turns := thins.turns_filter
  refine ⟨by rw [turns], ?_, thins.session_runLines, thins.failures_runLines,
    thins.runLinesOrStop⟩
  rw [Session.runLines_eq_turns, turns]

/-- A line that fails, a blank one and one that only shows a number, before one that stays. -/
def quotientFirst : List MarkedLine :=
  [⟨"y / x", false⟩, ⟨"\t", false⟩, ⟨"x - 7", false⟩, ⟨"x * 4", true⟩]

theorem quotientFirst_can_be_thinned :
    let session : Session := ⟨Environment.empty.assign "x" (.integer 2), true⟩
    (session.runLines false ["x * 4"]).1
      = (session.runLines false ["y / x", "\t", "x - 7", "x * 4"]).1 ∧
    (session.runLines false ["y / x", "\t", "x - 7", "x * 4"]).2.failures
      = (session.runLines false ["x * 4"]).2.failures + 1 := by
  intro session
  have quotient : Turn.IsIdle ⟨session, ⟨"y / x", false⟩⟩ :=
    .inr (.inl ⟨.evaluating (.unassigned "y"), by decide +kernel, rfl⟩)
  have blank : Turn.IsIdle ⟨session, ⟨"\t", false⟩⟩ := .inl (by decide)
  have difference : Turn.IsIdle ⟨session, ⟨"x - 7", false⟩⟩ :=
    .inr (.inr ⟨.binary .minus (.identifier "x") (.integer 7),
      some (.value (.number (.integer (-5)))), by decide +kernel, rfl, by decide +kernel⟩)
  have turns : session.turns false quotientFirst = [⟨session, ⟨"y / x", false⟩⟩,
      ⟨session, ⟨"\t", false⟩⟩, ⟨session, ⟨"x - 7", false⟩⟩, ⟨session, ⟨"x * 4", true⟩⟩] := by
    simp only [quotientFirst, Session.turns, (Session.passes_of_isIdle quotient).2,
      (Session.passes_of_isIdle blank).2, (Session.passes_of_isIdle difference).2]
  have idle : ∀ turn ∈ session.turns false quotientFirst,
      turn.line.stays = false → turn.IsIdle := by
    simp only [turns, List.forall_mem_cons]
    exact ⟨fun _ => quotient, fun _ => blank, fun _ => difference, by simp, by simp⟩
  obtain ⟨_, _, sessions, failures, _⟩ :=
    only_assignments_influence_a_run session false quotientFirst (.inr idle)
  have lost : (session.turns false quotientFirst).countP (Turn.isLostFailure false) = 1 := by
    rw [turns]
    decide +kernel
  rw [lost] at failures
  exact ⟨sessions, failures⟩

end Calculator
