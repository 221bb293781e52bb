import Calculator.Proofs.Evaluation.Assignment
import Calculator.Session
import Mathlib.Data.List.Induction

/-!
# The effect of a statement

A statement either leaves the environment exactly as it was, or it is an assignment at its
root that gives one name the number of its right side. There is no third outcome: a failure in
any phase, a blank statement, a shown tree and a tree without an assignment at its root are
all without effect.

## Main result

`environment_changes_only_by_assignment`: the effect of one statement, and what follows for a
name over any sequence of statements of a session.
-/

namespace Calculator

namespace Statement

variable {env : Environment} {showTree : Bool} {source : String}

/-- The statement fails, is blank, is shown, or assigns nothing at its root. -/
def Idle (env : Environment) (showTree : Bool) (source : String) : Prop :=
  (∃ error, (run env showTree source).result = .error error) ∨ tree? source = .ok none ∨
    showTree = true ∨ ∃ e, tree? source = .ok (some e) ∧ e.isAssignment = false

/-- The statement succeeds as an assignment of a number to a name: the right side assigns
nothing, and its number is the one in the environment before the statement. -/
structure Assigns (env : Environment) (source : String) (x : String) (v : Number) : Prop where
  tree : ∃ r, tree? source = .ok (some (.binary .assign (.identifier x) r)) ∧
    r.AssignmentFree ∧ r.evaluate env = .ok v
  result : (run env false source).result = .ok (some (.value .unit))
  environment : (run env false source).environment = env.assign x v

theorem run_of_tree {e : Expr} (env : Environment) (showTree : Bool)
    (tree : tree? source = .ok (some e)) :
    (run env showTree source).result = (runTree env showTree e).result ∧
      (run env showTree source).environment = (runTree env showTree e).environment := by
  simp only [run, tree, and_self]

theorem exists_tokens_of_tree {e : Expr} (tree : tree? source = .ok (some e)) :
    ∃ tokens, Token.scan source = .ok tokens ∧ Expr.ofTokens tokens = .ok (some e) := by
  unfold tree? at tree
  split at tree
  · cases tree
  · next tokens scanned =>
    split at tree
    · cases tree
    · next read =>
      cases tree
      exact ⟨tokens, scanned, read⟩

/-- A statement is idle and leaves the environment alone, or it assigns. -/
theorem idle_or_assigns (env : Environment) (showTree : Bool) (source : String) :
    (Idle env showTree source ∧ (run env showTree source).environment = env) ∨
    (showTree = false ∧ ∃ x v, Assigns env source x v) := by
  cases tree : tree? source with
  | error error =>
    have failed : run env showTree source = ⟨.error error, env, readingTrace source⟩ := by
      simp only [run, tree]
    exact .inl ⟨.inl ⟨error, by rw [failed]⟩, by rw [failed]⟩
  | ok read =>
    cases read with
    | none => exact .inl ⟨.inr (.inl tree), by simp only [run, tree]⟩
    | some e =>
      obtain ⟨result, environment⟩ := run_of_tree env showTree tree
      cases showTree with
      | true => exact .inl ⟨.inr (.inr (.inl rfl)), environment⟩
      | false =>
        cases executed : e.execute env with
        | error fault =>
          simp only [runTree, executed, Bool.false_eq_true, if_false] at result environment
          exact .inl ⟨.inl ⟨_, result⟩, environment⟩
        | ok outcome =>
          obtain ⟨value, after⟩ := outcome
          simp only [runTree, executed, Bool.false_eq_true, if_false] at result environment
          rcases Expr.execute_eq_ok executed with
            ⟨plain, rfl, _⟩ | ⟨x, r, v, rfl, rfl, evaluated, rfl⟩
          · exact .inl ⟨.inr (.inr (.inr ⟨e, tree, plain⟩)), environment⟩
          · have free := Expr.assignmentFree_of_evaluate evaluated
            exact .inr ⟨rfl, x, v, ⟨r, tree, free, evaluated⟩, result, environment⟩

theorem Assigns.not_idle {x : String} {v : Number} (assigns : Assigns env source x v) :
    ¬Idle env false source := by
  obtain ⟨⟨r, tree, _⟩, result, _⟩ := assigns
  rintro (⟨error, failed⟩ | blank | shown | ⟨e, read, plain⟩)
  · rw [result] at failed
    cases failed
  · rw [tree] at blank
    cases blank
  · cases shown
  · rw [tree] at read
    cases read
    cases plain

end Statement

namespace Session

/-- The session after statements, each with the choice whether its tree is shown. -/
def executeAll (session : Session) (statements : List (Bool × String)) : Session :=
  statements.foldl (fun session statement => (session.execute statement.1 statement.2).session)
    session

theorem executeAll_concat (session : Session) (statements : List (Bool × String))
    (statement : Bool × String) :
    session.executeAll (statements ++ [statement])
      = ((session.executeAll statements).execute statement.1 statement.2).session := by
  simp only [executeAll, List.foldl_append, List.foldl_cons, List.foldl_nil]

theorem environment_execute (session : Session) (showTree : Bool) (source : String) :
    (session.execute showTree source).session.environment
      = (Statement.run session.environment showTree source).environment := rfl

private theorem shown_of_assigns {session : Session} {source x : String} {v : Number}
    (assigns : Statement.Assigns session.environment source x v) :
    (session.execute false source).shown = .ok none := by
  simp only [execute, assigns.result]
  rfl

private theorem isSome_lookup_executeAll (session : Session) (statements : List (Bool × String))
    (name : String) (assigned : (session.environment.lookup name).isSome = true) :
    ((session.executeAll statements).environment.lookup name).isSome = true := by
  -- From the last statement backwards, so that what runs before it is a session again.
  induction statements using List.reverseRecOn with
  | nil => exact assigned
  | append_singleton earlier statement ih =>
    obtain ⟨showTree, source⟩ := statement
    rw [executeAll_concat, environment_execute]
    rcases Statement.idle_or_assigns (session.executeAll earlier).environment showTree source with
      ⟨_, same⟩ | ⟨rfl, x, v, assigns⟩
    · rw [same]
      exact ih
    · rw [assigns.environment]
      by_cases equal : name = x
      · rw [equal, Environment.lookup_assign_self]
        rfl
      · rw [Environment.lookup_assign_of_ne _ v equal]
        exact ih

/-- A name that changes got its number from the last assignment to it. -/
theorem assigns_of_lookup_executeAll_ne (session : Session) (statements : List (Bool × String))
    (name : String) (changed : (session.executeAll statements).environment.lookup name
      ≠ session.environment.lookup name) :
    ∃ earlier source later v, statements = earlier ++ (false, source) :: later ∧
      Statement.Assigns (session.executeAll earlier).environment source name v ∧
      (session.executeAll statements).environment.lookup name = some v := by
  induction statements using List.reverseRecOn with
  | nil => exact absurd rfl changed
  | append_singleton earlier statement ih =>
    obtain ⟨showTree, source⟩ := statement
    rw [executeAll_concat, environment_execute] at changed ⊢
    rcases Statement.idle_or_assigns (session.executeAll earlier).environment showTree source with
      ⟨_, same⟩ | ⟨rfl, x, v, assigns⟩
    · rw [same] at changed ⊢
      obtain ⟨first, source', later, v, rfl, assigns, value⟩ := ih changed
      exact ⟨first, source', later ++ [(showTree, source)], v, by simp, assigns, value⟩
    · by_cases equal : name = x
      -- The last statement gave the name its number, whatever it had before.
      · subst equal
        refine ⟨earlier, source, [], v, rfl, assigns, ?_⟩
        rw [assigns.environment, Environment.lookup_assign_self]
      · rw [assigns.environment, Environment.lookup_assign_of_ne _ v equal] at changed ⊢
        obtain ⟨first, source', later, v, rfl, assigns, value⟩ := ih changed
        exact ⟨first, source', later ++ [(false, source)], v, by simp, assigns, value⟩

end Session

/-- Statements are atomic. An idle statement leaves the environment as it was; any other
answers with the unit and gives exactly one name the number that the right side has in the
environment before. So over the statements of a session no name loses its number, and one
that changes got its number from an assignment to it at the root of a statement. -/
theorem environment_changes_only_by_assignment :
    (∀ env showTree source,
      (Statement.Idle env showTree source →
        (Statement.run env showTree source).environment = env) ∧
      (¬Statement.Idle env showTree source → ∃ x r v,
        (Statement.run env showTree source).result = .ok (some (.value .unit)) ∧
        Statement.tree? source = .ok (some (.binary .assign (.identifier x) r)) ∧
        r.AssignmentFree ∧ r.evaluate env = .ok v ∧
        (Statement.run env showTree source).environment = env.assign x v ∧
        (Statement.run env showTree source).environment.lookup x = some v ∧
        ∀ y, y ≠ x →
          (Statement.run env showTree source).environment.lookup y = env.lookup y)) ∧
    (∀ (session : Session) statements name,
      ((session.environment.lookup name).isSome = true →
        ((session.executeAll statements).environment.lookup name).isSome = true) ∧
      ((session.executeAll statements).environment.lookup name
          ≠ session.environment.lookup name →
        ∃ earlier source later r v, statements = earlier ++ (false, source) :: later ∧
          Statement.tree? source = .ok (some (.binary .assign (.identifier name) r)) ∧
          r.evaluate (session.executeAll earlier).environment = .ok v ∧
          ((session.executeAll earlier).execute false source).shown = .ok none ∧
          (session.executeAll statements).environment.lookup name = some v)) := by
  refine ⟨fun env showTree source => ?_, fun session statements name => ⟨?_, fun changed => ?_⟩⟩
  · rcases Statement.idle_or_assigns env showTree source with ⟨idle, same⟩ | ⟨rfl, x, v, assigns⟩
    · exact ⟨fun _ => same, fun busy => absurd idle busy⟩
    · refine ⟨fun idle => absurd idle assigns.not_idle, fun _ => ?_⟩
      obtain ⟨r, tree, free, evaluated⟩ := assigns.tree
      refine ⟨x, r, v, assigns.result, tree, free, evaluated, assigns.environment, ?_, ?_⟩
      · rw [assigns.environment, Environment.lookup_assign_self]
      · intro y different
        rw [assigns.environment, Environment.lookup_assign_of_ne env v different]
  · exact session.isSome_lookup_executeAll statements name
  · obtain ⟨earlier, source, later, v, split, assigns, value⟩ :=
      session.assigns_of_lookup_executeAll_ne statements name changed
    obtain ⟨r, tree, _, evaluated⟩ := assigns.tree
    exact ⟨earlier, source, later, r, v, split, tree, evaluated, Session.shown_of_assigns assigns,
      value⟩

/-- A statement that assigns: its name has the number of the right side afterwards, and a name
beside it keeps its own. -/
theorem lookup_after_assignment :
    ¬Statement.Idle (Environment.empty.assign "y" (.integer 5)) false "x = y - 7" ∧
    (Statement.run (Environment.empty.assign "y" (.integer 5)) false "x = y - 7").environment.lookup
      "x" = some (.integer (-2)) ∧
    (Statement.run (Environment.empty.assign "y" (.integer 5)) false "x = y - 7").environment.lookup
      "y" = some (.integer 5) := by
  have tree : Statement.tree? "x = y - 7" = .ok (some (.binary .assign (.identifier "x")
      (.binary .minus (.identifier "y") (.integer 7)))) := by decide +kernel
  have succeeds : (Statement.run (Environment.empty.assign "y" (.integer 5)) false
      "x = y - 7").result = .ok (some (.value .unit)) := by decide +kernel
  have busy : ¬Statement.Idle (Environment.empty.assign "y" (.integer 5)) false "x = y - 7" := by
    rintro (⟨error, failed⟩ | blank | shown | ⟨e, read, plain⟩)
    · rw [succeeds] at failed
      cases failed
    · rw [tree] at blank
      cases blank
    · cases shown
    · rw [tree] at read
      cases read
      cases plain
  obtain ⟨x, r, v, _, read, _, evaluated, _, assigned, kept⟩ :=
    (environment_changes_only_by_assignment.1 _ false "x = y - 7").2 busy
  rw [tree] at read
  cases read
  have number : v = .integer (-2) := by
    have difference : (Expr.binary .minus (.identifier "y") (.integer 7)).evaluate
        (Environment.empty.assign "y" (.integer 5)) = .ok (.integer (-2)) := rfl
    exact Except.ok.inj (evaluated.symm.trans difference)
  refine ⟨busy, number ▸ assigned, ?_⟩
  rw [kept "y" (by decide)]
  exact Environment.lookup_assign_self _ _ _

end Calculator
