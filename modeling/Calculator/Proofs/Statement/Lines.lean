import Calculator.Proofs.Statement.Safety

/-!
# Runs of lines

A run of lines goes from one session to the next, and what it writes is what its lines write one
after the other. A line does to the session what its statement does, and it counts as a failure
exactly when its statement fails.
-/

namespace Calculator

namespace Transcript

theorem empty_append (a : Transcript) : empty ++ a = a := by
  change append empty a = a
  simp [append, empty]

theorem append_empty (a : Transcript) : a ++ empty = a := by
  change append a empty = a
  simp [append, empty]

theorem append_assoc (a b c : Transcript) : a ++ b ++ c = a ++ (b ++ c) := by
  change append (append a b) c = append a (append b c)
  simp [append, Nat.add_assoc, String.append_assoc]

@[simp] theorem failures_append (a b : Transcript) :
    (a ++ b).failures = a.failures + b.failures := rfl

/-- What was written before a run of steps stands in front of what the steps write. -/
theorem foldl_append {σ β : Type} (step : σ → β → σ × Transcript) (start : σ)
    (before : Transcript) (items : List β) :
    items.foldl (fun state item => ((step state.1 item).1, state.2 ++ (step state.1 item).2))
        (start, before)
      = Prod.map id (before ++ ·) (items.foldl
          (fun state item => ((step state.1 item).1, state.2 ++ (step state.1 item).2))
          (start, empty)) := by
  induction items generalizing start before with
  | nil => simp [append_empty]
  | cons item rest ih =>
    -- Both runs of the rest are compared with the one before which nothing is written.
    rw [List.foldl_cons, List.foldl_cons, ih, ih (step start item).1 (empty ++ _)]
    simp only [empty_append, append_assoc, Prod.map_map]
    rfl

end Transcript

/-- What a line says without the blanks around it. -/
def statementOf (line : String) : String :=
  String.ofList (Text.strip line.toList)

namespace Statement

theorem run_blank (env : Environment) (showTree : Bool) :
    (run env showTree "").result = .ok none ∧ (run env showTree "").environment = env := by
  have blank : tree? "" = .ok none := by decide +kernel
  simp only [run, blank, and_self]

/-- A statement without effect leaves the environment as it was. -/
theorem Idle.environment_eq {env : Environment} {showTree : Bool} {source : String}
    (idle : Idle env showTree source) : (run env showTree source).environment = env := by
  rcases idle_or_assigns env showTree source with ⟨_, same⟩ | ⟨rfl, x, v, assigns⟩
  · exact same
  · exact absurd idle assigns.not_idle

end Statement

namespace Session

variable {session next : Session} {showTree : Bool} {line : String} {lines : List String}

/-! ### One line -/

def fails (session : Session) (showTree : Bool) (line : String) : Bool :=
  match (Statement.run session.environment showTree (statementOf line)).result with
  | .error _ => true
  | .ok _ => false

theorem environment_runLine (session : Session) (showTree : Bool) (line : String) :
    (session.runLine showTree line).1
      = ⟨(Statement.run session.environment showTree (statementOf line)).environment,
        session.debug⟩ := by
  by_cases blank : statementOf line = ""
  · have idle := (Statement.run_blank session.environment showTree).2
    have skipped : (session.runLine showTree line).1 = session := by
      rw [runLine, ← statementOf, if_pos blank]
    rw [skipped, blank, idle]
  · rw [runLine, ← statementOf, if_neg blank]
    simp only
    split <;> rfl

theorem failures_runLine (session : Session) (showTree : Bool) (line : String) :
    (session.runLine showTree line).2.failures
      = if session.fails showTree line then 1 else 0 := by
  by_cases blank : statementOf line = ""
  · have succeeds := (Statement.run_blank session.environment showTree).1
    rw [runLine, ← statementOf, if_pos blank, fails, blank, succeeds]
    rfl
  · rw [runLine, ← statementOf, if_neg blank, fails]
    simp only [execute]
    cases (Statement.run session.environment showTree (statementOf line)).result with
    | error error => rfl
    | ok answer =>
      cases answer with
      | none => rfl
      | some answer => by_cases empty : answer.text = "" <;> simp [empty]

theorem runLine_of_idle
    (idle : Statement.Idle session.environment showTree (statementOf line)) :
    (session.runLine showTree line).1 = session := by
  rw [environment_runLine, idle.environment_eq]

/-! ### Whole runs -/

theorem runLines_eq_foldl (session : Session) (showTree : Bool) (lines : List String) :
    session.runLines showTree lines = lines.foldl (fun state line =>
        ((state.1.runLine showTree line).1, state.2 ++ (state.1.runLine showTree line).2))
      (session, .empty) := rfl

theorem runLines_cons (session : Session) (showTree : Bool) (line : String)
    (lines : List String) :
    session.runLines showTree (line :: lines)
      = Prod.map id ((session.runLine showTree line).2 ++ ·)
        ((session.runLine showTree line).1.runLines showTree lines) := by
  have split := Transcript.foldl_append (fun session line => runLine session showTree line)
    (session.runLine showTree line).1 (.empty ++ (session.runLine showTree line).2) lines
  rw [runLines_eq_foldl, List.foldl_cons, split, Transcript.empty_append, ← runLines_eq_foldl]

end Session

end Calculator
