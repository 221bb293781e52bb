import Calculator.Proofs.Evaluation.Mention
import Calculator.Proofs.Statement.Effect

/-!
# Independent statements

Two statements are independent if neither mentions the name that the other one assigns. It does
not matter which of them runs first: each answers or fails as it does alone, and what they leave
behind is the same.

## Main result

`independent_statements_commute`: both orders of two independent statements of a session.

## Proof strategy

A statement that does not mention a variable runs in front of its assignment as it does behind
it. What one of the statements writes is at most such an assignment, so each of them runs as
if the other one had not run.
-/

namespace Calculator

namespace Statement

/-- The tree of the statement assigns the name at its root. -/
def Targets (source : String) (name : String) : Prop :=
  ∃ r, tree? source = .ok (some (.binary .assign (.identifier name) r))

def Mentions (source : String) (name : String) : Prop :=
  ∃ e, tree? source = .ok (some e) ∧ e.Mentions name

/-- The second statement does not mention what the first one assigns. -/
def Unaffected (second first : String) : Prop :=
  ∀ name, Targets first name → ¬Mentions second name

variable {env : Environment} {first second source x : String} {v : Number}

private theorem runTree_assign_comm {e : Expr} (unmentioned : ¬e.Mentions x) (showTree : Bool) :
    runTree (env.assign x v) showTree e =
      { runTree env showTree e with
        environment := (runTree env showTree e).environment.assign x v } := by
  cases showTree with
  | true => rfl
  | false =>
    simp only [runTree, Bool.false_eq_true, if_false, Expr.execute_assign_comm unmentioned]
    cases e.execute env <;> rfl

/-- A statement that does not mention a variable runs the same way before its assignment. -/
theorem run_assign_comm (unmentioned : ¬Mentions source x) (showTree : Bool) :
    run (env.assign x v) showTree source =
      { run env showTree source with
        environment := (run env showTree source).environment.assign x v } := by
  cases tree : tree? source with
  | error error => simp only [run, tree]
  | ok read =>
    cases read with
    | none => simp only [run, tree]
    | some e =>
      have absent : ¬e.Mentions x := fun mentioned => unmentioned ⟨e, tree, mentioned⟩
      simp only [run, tree, runTree_assign_comm absent]

/-- All that a statement can write is its target. -/
theorem environment_run (env : Environment) (showTree : Bool) (source : String) :
    (run env showTree source).environment = env ∨
      ∃ x v, Targets source x ∧ (run env showTree source).environment = env.assign x v := by
  rcases idle_or_assigns env showTree source with ⟨_, same⟩ | ⟨rfl, x, v, assigns⟩
  · exact .inl same
  · obtain ⟨r, tree, _⟩ := assigns.tree
    exact .inr ⟨x, v, ⟨r, tree⟩, assigns.environment⟩

/-- A statement runs after one that does not affect it as it runs before. -/
theorem run_of_unaffected (unaffected : Unaffected second first) (env : Environment)
    (showFirst showSecond : Bool) :
    (run (run env showFirst first).environment showSecond second).result
        = (run env showSecond second).result ∧
      (run (run env showFirst first).environment showSecond second).trace
        = (run env showSecond second).trace := by
  rcases environment_run env showFirst first with same | ⟨x, v, targets, assigned⟩
  · simp only [same, and_self]
  · simp only [assigned, run_assign_comm (unaffected x targets), and_self]

/-- The environment after both statements does not depend on their order. -/
theorem environment_comm (unaffected : Unaffected second first)
    (converse : Unaffected first second) (env : Environment) (showFirst showSecond : Bool) :
    (run (run env showFirst first).environment showSecond second).environment
      = (run (run env showSecond second).environment showFirst first).environment := by
  rcases environment_run env showFirst first with same | ⟨x, v, targets, assigned⟩
  · rcases environment_run env showSecond second with idle | ⟨y, w, other, written⟩
    · rw [same, idle, same]
    · rw [same, written, run_assign_comm (converse y other), same]
  · rcases environment_run env showSecond second with idle | ⟨y, w, other, written⟩
    · rw [assigned, run_assign_comm (unaffected x targets), idle, assigned]
    · -- Both assign, and the second statement mentions its own target.
      have different : x ≠ y := by
        rintro rfl
        obtain ⟨r, tree⟩ := other
        exact unaffected x targets ⟨_, tree, .inl rfl⟩
      rw [assigned, run_assign_comm (unaffected x targets), written,
        run_assign_comm (converse y other), assigned, Environment.assign_comm different]

end Statement

namespace Session

variable {a b : Session} {showTree : Bool} {source : String}

private theorem shown_congr
    (same : (Statement.run a.environment showTree source).result
      = (Statement.run b.environment showTree source).result) :
    (a.execute showTree source).shown = (b.execute showTree source).shown := by
  simp only [execute, same]

private theorem log_congr (debug : a.debug = b.debug)
    (same : (Statement.run a.environment showTree source).trace
      = (Statement.run b.environment showTree source).trace) :
    (a.execute showTree source).log = (b.execute showTree source).log := by
  simp only [execute, Run.log, debug, same]

end Session

/-- Two statements that do not mention each other's target can be run in either order: each shows
the same text, or fails for the same reason, with the same log, and the session after both has the
same variables with the same numbers. -/
theorem independent_statements_commute (session : Session) (showFirst showSecond : Bool)
    {first second : String} (unaffected : Statement.Unaffected second first)
    (converse : Statement.Unaffected first second) :
    let afterFirst := (session.execute showFirst first).session
    let afterSecond := (session.execute showSecond second).session
    (afterSecond.execute showFirst first).shown = (session.execute showFirst first).shown ∧
    (afterFirst.execute showSecond second).shown = (session.execute showSecond second).shown ∧
    (afterSecond.execute showFirst first).log = (session.execute showFirst first).log ∧
    (afterFirst.execute showSecond second).log = (session.execute showSecond second).log ∧
    (afterFirst.execute showSecond second).session
      = (afterSecond.execute showFirst first).session := by
  obtain ⟨firstResult, firstTrace⟩ :=
    Statement.run_of_unaffected converse session.environment showSecond showFirst
  obtain ⟨secondResult, secondTrace⟩ :=
    Statement.run_of_unaffected unaffected session.environment showFirst showSecond
  refine ⟨Session.shown_congr firstResult, Session.shown_congr secondResult,
    Session.log_congr rfl firstTrace, Session.log_congr rfl secondTrace, ?_⟩
  have environments :=
    Statement.environment_comm unaffected converse session.environment showFirst showSecond
  simp only [Session.execute, environments]

/-- An assignment and one that fails, over a variable that both read. -/
theorem power_and_quotient_commute :
    let session : Session := ⟨Environment.empty.assign "a" (.integer 3), false⟩
    (((session.execute false "y = a / 0").session.execute false "x = a ^ 2").shown = .ok none) ∧
    (((session.execute false "x = a ^ 2").session.execute false "y = a / 0").shown
      = .error (.evaluating .divisionByZero)) ∧
    ((session.execute false "x = a ^ 2").session.execute false "y = a / 0").session
      = ((session.execute false "y = a / 0").session.execute false "x = a ^ 2").session := by
  intro session
  have power : Statement.tree? "x = a ^ 2" = .ok (some (.binary .assign (.identifier "x")
      (.binary .power (.identifier "a") (.integer 2)))) := by decide +kernel
  have quotient : Statement.tree? "y = a / 0" = .ok (some (.binary .assign (.identifier "y")
      (.binary .divide (.identifier "a") (.integer 0)))) := by decide +kernel
  have unaffected : Statement.Unaffected "y = a / 0" "x = a ^ 2" := by
    rintro name ⟨r, target⟩ ⟨e, tree, mentioned⟩
    rw [power] at target
    rw [quotient] at tree
    cases target
    cases tree
    simp [Expr.Mentions] at mentioned
  have converse : Statement.Unaffected "x = a ^ 2" "y = a / 0" := by
    rintro name ⟨r, target⟩ ⟨e, tree, mentioned⟩
    rw [quotient] at target
    rw [power] at tree
    cases target
    cases tree
    simp [Expr.Mentions] at mentioned
  obtain ⟨first, second, _, _, sessions⟩ :=
    independent_statements_commute session false false unaffected converse
  have alone : (session.execute false "x = a ^ 2").shown = .ok none := by decide +kernel
  have failing : (session.execute false "y = a / 0").shown
      = .error (.evaluating .divisionByZero) := by decide +kernel
  exact ⟨first.trans alone, second.trans failing, sessions⟩

end Calculator
