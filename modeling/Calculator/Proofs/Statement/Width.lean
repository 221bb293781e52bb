import Calculator.Proofs.Evaluation.Width
import Calculator.Proofs.Statement.Effect

/-!
# The width of a session

A session that starts without variables only ever answers with numbers of 32 bits and only ever
binds such numbers, whatever its statements are and in whatever order they succeed and fail. The
unit is the answer of an assignment and of nothing else, and no name is bound to it.

## Main result

`session_numbers_fit`: the invariant of the environment, and the answer to the next statement.
-/

namespace Calculator

namespace Statement

variable {env : Environment} {showTree : Bool} {source : String}

/-- A value comes from the evaluation of a tree, which also leaves the next environment. -/
theorem exists_tree_of_value {value : Value}
    (answered : (run env showTree source).result = .ok (some (.value value))) :
    ∃ e, tree? source = .ok (some e) ∧
      e.execute env = .ok (value, (run env showTree source).environment) := by
  cases tree : tree? source with
  | error error =>
    simp only [run, tree] at answered
    cases answered
  | ok read =>
    cases read with
    | none =>
      simp only [run, tree] at answered
      cases answered
    | some e =>
      obtain ⟨result, environment⟩ := run_of_tree env showTree tree
      rw [result, runTree] at answered
      rw [environment, runTree]
      refine ⟨e, rfl, ?_⟩
      split at answered
      · cases answered
      · -- The tree is not only shown: it is evaluated.
        next evaluates =>
        rw [if_neg evaluates]
        split at answered
        · cases answered
        · next executed =>
          cases answered
          rw [executed]

/-- A statement keeps the width of the environment. -/
theorem fits_run (fits : env.Fits) (showTree : Bool) (source : String) :
    (run env showTree source).environment.Fits := by
  rcases idle_or_assigns env showTree source with ⟨_, same⟩ | ⟨rfl, x, v, assigns⟩
  · rw [same]
    exact fits
  · obtain ⟨r, _, _, evaluated⟩ := assigns.tree
    rw [assigns.environment]
    exact Environment.satisfies_assign fits (Expr.fits_evaluate fits evaluated)

end Statement

/-- Statements keep the width of the environment of their session. -/
theorem Session.fits_executeAll {session : Session} (fits : session.environment.Fits)
    (statements : List (Bool × String)) :
    (session.executeAll statements).environment.Fits := by
  induction statements using List.reverseRecOn with
  | nil => exact fits
  | append_singleton earlier statement ih =>
    rw [executeAll_concat, environment_execute]
    exact Statement.fits_run ih statement.1 statement.2

def Session.environmentAfter (debug : Bool) (statements : List (Bool × String)) : Environment :=
  ((Session.start debug).executeAll statements).environment

/-- Over any statements of a session every number that is bound has 32 bits. The next statement
answers with a number of 32 bits if its tree assigns nothing, and with the unit if it assigns
such a number to a name; the unit itself is bound to no name. -/
theorem session_numbers_fit (debug : Bool) (statements : List (Bool × String)) :
    (∀ name v, (Session.environmentAfter debug statements).lookup name = some v → v.Fits) ∧
    (∀ name, (Session.environmentAfter debug statements).bind name .unit = .error ⟨name⟩) ∧
    ∀ showTree source value,
      (Statement.run (Session.environmentAfter debug statements) showTree source).result
        = .ok (some (.value value)) →
      ∃ e, Statement.tree? source = .ok (some e) ∧
        ((e.isAssignment = false ∧ ∃ v, value = .number v ∧ v.Fits) ∨
        ∃ x r v, e = .binary .assign (.identifier x) r ∧ value = .unit ∧ v.Fits ∧
          (Session.environmentAfter debug statements).bind x (.number v)
            = .ok (Statement.run (Session.environmentAfter debug statements) showTree
                source).environment) := by
  have start : (Session.start debug).environment.Fits := Environment.satisfies_empty
  have fits : (Session.environmentAfter debug statements).Fits :=
    Session.fits_executeAll start statements
  refine ⟨fits, fun name => rfl, ?_⟩
  intro showTree source value answered
  obtain ⟨e, tree, executed⟩ := Statement.exists_tree_of_value answered
  refine ⟨e, tree, ?_⟩
  rcases Expr.execute_eq_ok executed with
    ⟨plain, _, v, rfl, evaluated⟩ | ⟨x, r, v, rfl, rfl, evaluated, after⟩
  · exact .inl ⟨plain, v, rfl, Expr.fits_evaluate fits evaluated⟩
  · refine .inr ⟨x, r, v, rfl, rfl, Expr.fits_evaluate fits evaluated, ?_⟩
    rw [after]
    rfl

/-- The smallest integer, which only a sign makes, survives a division by minus one, after a
statement that fails and one that is shown. -/
theorem smallestInteger_fits_after_division :
    (Statement.run ((Session.start false).executeAll
      [(false, "a = -2147483648"), (false, "a = b + 1"), (true, "a = 5")]).environment false
      "a / -1").result = .ok (some (.value (.number (.integer smallestInteger)))) ∧
    Number.Fits (.integer smallestInteger) := by
  have answered : (Statement.run ((Session.start false).executeAll
      [(false, "a = -2147483648"), (false, "a = b + 1"), (true, "a = 5")]).environment false
      "a / -1").result = .ok (some (.value (.number (.integer smallestInteger)))) := by
    decide +kernel
  obtain ⟨e, _, ⟨_, v, number, fits⟩ | ⟨_, _, _, _, unit, _⟩⟩ :=
    (session_numbers_fit false _).2.2 false "a / -1" _ answered
  · cases number
    exact ⟨answered, fits⟩
  · cases unit

end Calculator
