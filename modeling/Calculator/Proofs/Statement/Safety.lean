import Calculator.Proofs.Evaluation.Faults
import Calculator.Proofs.Token.Cutting
import Calculator.Proofs.Statement.Effect

/-!
# Statements fail only as statements

A statement fails because of what it says: a text with no tokens, tokens with no tree, or a
tree with no number. The reader never runs out of stack and never builds a node that its
constructor refuses, evaluation never meets a node that it does not know, and arithmetic does
not overflow while the integers of the environment have a nearest real. So a sequence of lines
is always run to its end.

## Main result

`statements_fail_as_statements`: the causes of failure of a statement, what it leaves behind, and
the run of any lines.
-/

namespace Calculator

namespace StatementError

/-- A failure for which the statement is to blame. -/
def IsExpected : StatementError → Prop
  | scanning _ => True
  | reading error => error.IsSyntactic
  | evaluating fault => fault.IsExpected

theorem isReported_of_isExpected {error : StatementError} (expected : error.IsExpected) :
    error.isReported = true := by
  cases error with
  | scanning _ => rfl
  | reading error => cases error <;> first | rfl | exact expected.elim
  | evaluating fault => cases fault <;> first | rfl | exact expected.elim

end StatementError

namespace Statement

variable {env : Environment} {showTree : Bool} {source : String}

theorem wellFormed_of_tree {e : Expr} (read : tree? source = .ok (some e)) : e.WellFormed := by
  obtain ⟨tokens, _, parsed⟩ := exists_tokens_of_tree read
  exact wellFormed_of_ofTokens parsed

/-- Scanned tokens that form no statement are at fault themselves. -/
theorem isExpected_of_tree {error : StatementError} (failed : tree? source = .error error) :
    error.IsExpected := by
  unfold tree? at failed
  split at failed
  · cases failed
    trivial
  · next scanned =>
    split at failed
    · next refused =>
      cases failed
      exact isSyntactic_of_ofTokens (Token.isLexical_of_scan scanned) refused
    · cases failed

theorem isExpected_of_run {error : StatementError} (convertible : env.IsConvertible)
    (failed : (run env showTree source).result = .error error) : error.IsExpected := by
  cases tree : tree? source with
  | error cause =>
    simp only [run, tree] at failed
    cases failed
    exact isExpected_of_tree tree
  | ok read =>
    cases read with
    | none =>
      simp only [run, tree] at failed
      cases failed
    | some e =>
      rw [(run_of_tree env showTree tree).1, runTree] at failed
      split at failed
      · cases failed
      · split at failed
        · next executed =>
          cases failed
          exact Expr.isExpected_of_execute convertible (wellFormed_of_tree tree) executed
        · cases failed

theorem isConvertible_run (convertible : env.IsConvertible) (showTree : Bool) (source : String) :
    (run env showTree source).environment.IsConvertible := by
  rcases idle_or_assigns env showTree source with ⟨_, same⟩ | ⟨rfl, x, v, assigns⟩
  · rw [same]
    exact convertible
  · obtain ⟨r, tree, _, evaluated⟩ := assigns.tree
    obtain ⟨_, _, _, right⟩ := wellFormed_of_tree tree
    have regular := Expr.isRegular_evaluate convertible right
    rw [evaluated] at regular
    rw [assigns.environment]
    exact Environment.isConvertible_assign convertible regular

end Statement

/-- Steps that agree with total ones as long as an invariant holds run through a whole list. -/
private theorem foldlM_eq_ok {α β ε : Type} {next : α → β → α} {step : α → β → Except ε α}
    (invariant : α → Prop) (agrees : ∀ a b, invariant a → step a b = .ok (next a b))
    (kept : ∀ a b, invariant a → invariant (next a b)) {a : α} (holds : invariant a)
    (items : List β) : items.foldlM step a = .ok (items.foldl next a) := by
  induction items generalizing a with
  | nil => rfl
  | cons item rest ih =>
    rw [List.foldlM_cons, List.foldl_cons, agrees a item holds]
    exact ih (kept a item holds)

namespace Session

variable {session : Session} {showTree : Bool}

theorem result_of_shown_eq_error {source : String} {error : StatementError}
    (failed : (session.execute showTree source).shown = .error error) :
    (Statement.run session.environment showTree source).result = .error error := by
  simp only [execute] at failed
  split at failed
  · next result =>
    cases failed
    exact result
  · cases failed
  · cases failed

private theorem session_runLine (session : Session) (showTree : Bool) (line : String) :
    (session.runLine showTree line).1 = session ∨
    ∃ source, (session.runLine showTree line).1 = (session.execute showTree source).session := by
  simp only [runLine]
  split
  · exact .inl rfl
  · refine .inr ⟨String.ofList (Text.strip line.toList), ?_⟩
    split <;> rfl

theorem isConvertible_runLine (convertible : session.environment.IsConvertible) (line : String) :
    (session.runLine showTree line).1.environment.IsConvertible := by
  rcases session_runLine session showTree line with same | ⟨source, ran⟩
  · rw [same]
    exact convertible
  · rw [ran, environment_execute]
    exact Statement.isConvertible_run convertible showTree source

/-- A line does not stop the program. -/
theorem runLineOrStop_eq_ok (convertible : session.environment.IsConvertible) (line : String) :
    session.runLineOrStop showTree line = .ok (session.runLine showTree line) := by
  simp only [runLineOrStop]
  split
  · next blank => simp only [runLine, if_pos blank]
  · split
    · next failed =>
      have expected := Statement.isExpected_of_run convertible (result_of_shown_eq_error failed)
      rw [if_pos (StatementError.isReported_of_isExpected expected)]
    · rfl

theorem runLinesOrStop_eq_ok (convertible : session.environment.IsConvertible)
    (lines : List String) :
    session.runLinesOrStop showTree lines = .ok (session.runLines showTree lines) := by
  refine foldlM_eq_ok (fun state => state.1.environment.IsConvertible) ?_ ?_ convertible lines
  · rintro ⟨session, before⟩ line convertible
    simp only [runLineOrStop_eq_ok convertible line]
    rfl
  · rintro ⟨session, before⟩ line convertible
    dsimp only
    exact isConvertible_runLine convertible line

/-- A session without variables runs all lines. -/
theorem runLinesOrStop_start (debug showTree : Bool) (lines : List String) :
    (start debug).runLinesOrStop showTree lines = .ok ((start debug).runLines showTree lines) :=
  runLinesOrStop_eq_ok Environment.isConvertible_empty lines

end Session

/-- While the integers of the environment have a nearest real, a statement fails for a reason
that stands in it. Trees are well-formed, no reduction builds a node that its constructor
refuses, and a scope that ends has its sentinel on top. The environment stays as it has to be,
so that a sequence of lines is run to its end. -/
theorem statements_fail_as_statements (env : Environment)
    (convertible : ∀ name n, env.lookup name = some (.integer n) → n.natAbs < conversionBound) :
    (∀ showTree source error, (Statement.run env showTree source).result = .error error →
      error.IsExpected) ∧
    (∀ source e, Statement.tree? source = .ok (some e) → e.WellFormed) ∧
    (∀ op built l r operands rest, combine op operands = .ok (.binary built l r :: rest) →
      Expr.mkBinary built l r = .ok (.binary built l r)) ∧
    (∀ s t, Stacks.unwind s = .ok t → ∃ below, t.operators = .sentinel :: below) ∧
    (∀ showTree source, (Statement.run env showTree source).environment.IsConvertible) ∧
    ∀ debug showTree lines,
      Session.runLinesOrStop ⟨env, debug⟩ showTree lines
        = .ok (Session.runLines ⟨env, debug⟩ showTree lines) := by
  have regular : env.IsConvertible := by
    intro name v found
    cases v with
    | integer n => exact convertible name n found
    | real x => trivial
  refine ⟨fun showTree source error failed => Statement.isExpected_of_run regular failed,
    fun source e read => Statement.wellFormed_of_tree read,
    fun op built l r operands rest combined => mkBinary_of_combine combined,
    fun s t unwound => Stacks.sentinel_of_unwind unwound,
    fun showTree source => Statement.isConvertible_run regular showTree source,
    fun debug showTree lines => ?_⟩
  have started : (Session.mk env debug).environment.IsConvertible := regular
  exact Session.runLinesOrStop_eq_ok started lines

/-- Lines that fail in each phase, or take the power of the smallest integer, are all run. -/
theorem runs_with_smallestInteger :
    Session.runLinesOrStop ⟨Environment.empty.assign "a" (.integer smallestInteger), false⟩ false
        ["a ^ -1", "1 / (a - a)", "(", "a"]
      = .ok (Session.runLines ⟨Environment.empty.assign "a" (.integer smallestInteger), false⟩
        false ["a ^ -1", "1 / (a - a)", "(", "a"]) := by
  refine (statements_fail_as_statements _ ?_).2.2.2.2.2 false false _
  intro name n found
  by_cases equal : name = "a"
  · rw [equal, Environment.lookup_assign_self] at found
    cases found
    decide +kernel
  · rw [Environment.lookup_assign_of_ne _ _ equal] at found
    cases found

/-- An integer that no calculation makes can overflow: here it has 401 digits. -/
theorem overflow_beyond_doubles :
    (Statement.run (Environment.empty.assign "a" (.integer (10 ^ 400))) false "a ^ -1").result
      = .error (.evaluating .integerTooLarge) ∧
    ¬StatementError.IsExpected (.evaluating .integerTooLarge) := by
  have tree : Statement.tree? "a ^ -1" = .ok (some (.binary .power (.identifier "a")
      (.unary .negate (.integer 1)))) := by decide +kernel
  have huge : Number.realOfInt (10 ^ 400) = .error .integerTooLarge :=
    Number.realOfInt_eq_error_iff.mpr ⟨rfl, by decide +kernel⟩
  have one (env : Environment) : (Expr.unary .negate (.integer 1)).evaluate env
      = .ok (.integer (-1)) := rfl
  have power {n : Int} (beyond : Number.realOfInt n = .error .integerTooLarge) :
      (Expr.binary .power (.identifier "a") (.unary .negate (.integer 1))).evaluate
        (Environment.empty.assign "a" (.integer n)) = .error .integerTooLarge := by
    rw [Expr.evaluate, Expr.evaluate, Environment.lookup_assign_self, one]
    simp [Operator.isArithmetic, Number.apply, Number.promote, Number.combineIntegers, Number.power,
      beyond]
  refine ⟨?_, id⟩
  rw [(Statement.run_of_tree _ false tree).1, Statement.runTree,
    Expr.execute_of_isAssignment_eq_false _ rfl, power huge]
  rfl

end Calculator
