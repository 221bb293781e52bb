import Calculator.Proofs.Evaluation.Assignment
import Calculator.Proofs.Number.Conversion
import Calculator.Proofs.Reading.Trees

/-!
# The faults of an evaluation

In an environment whose integers have a nearest real, a well-formed tree has a number that has
one too, or it fails for a reason that stands in the statement: a missing variable, a division
by zero, or an operator in the wrong place.
-/

namespace Calculator

/-- A fault for which the statement is to blame. -/
def Fault.IsExpected : Fault → Prop
  | unassigned _ | divisionByZero | misplaced .. => True
  | badTarget _ | notEvaluable _ | integerTooLarge => False

namespace Number

/-- The number has a nearest real. -/
def IsConvertible : Number → Prop
  | integer n => n.natAbs < conversionBound
  | real _ => True

theorem isConvertible_of_fits {v : Number} (fits : v.Fits) : v.IsConvertible := by
  cases v with
  | real x => trivial
  | integer n =>
    have small : 2 ^ 32 ≤ conversionBound := Format.pow_le_conversionBound (by norm_num)
    simp only [Fits, smallestInteger, largestInteger] at fits
    simp only [IsConvertible]
    omega

theorem isConvertible_ofInt (n : Int) : (ofInt n).IsConvertible :=
  isConvertible_of_fits (wrap_range n)

theorem realOfInt_eq_ok {n : Int} (convertible : (integer n).IsConvertible) :
    ∃ x, realOfInt n = .ok x := by
  cases converted : realOfInt n with
  | ok x => exact ⟨x, rfl⟩
  | error fault =>
    have large := (realOfInt_eq_error_iff.mp converted).2
    exact absurd convertible (Nat.not_lt.mpr large)

/-- The outcome is a number with a nearest real, or a fault of the statement. -/
def IsRegular : Except Fault Number → Prop
  | .ok v => v.IsConvertible
  | .error fault => fault.IsExpected

variable {a b : Number}

theorem promote_eq_ok (left : a.IsConvertible) (right : b.IsConvertible) :
    (∃ m n, promote a b = .ok (.integers m n) ∧ a = .integer m ∧ b = .integer n) ∨
    ∃ x y, promote a b = .ok (.reals x y) := by
  cases a with
  | integer m =>
    cases b with
    | integer n => exact .inl ⟨m, n, rfl, rfl, rfl⟩
    | real y =>
      obtain ⟨x, converted⟩ := realOfInt_eq_ok left
      exact .inr ⟨x, Format.single.round y, by simp only [promote, converted]⟩
  | real x =>
    cases b with
    | integer n =>
      obtain ⟨y, converted⟩ := realOfInt_eq_ok right
      exact .inr ⟨Format.single.round x, y, by simp only [promote, converted]⟩
    | real y => exact .inr ⟨x, y, rfl⟩

private theorem isRegular_combineIntegers {m n : Int} (op : Operator)
    (left : (integer m).IsConvertible) (right : (integer n).IsConvertible) :
    IsRegular (combineIntegers op m n) := by
  cases op with
  | plus | minus | multiply => exact isConvertible_ofInt _
  | divide =>
    simp only [combineIntegers]
    split
    · trivial
    · exact isConvertible_ofInt _
  | power =>
    -- A negative exponent makes reals of both integers.
    obtain ⟨x, base⟩ := realOfInt_eq_ok left
    obtain ⟨y, exponent⟩ := realOfInt_eq_ok right
    simp only [combineIntegers, power, base, exponent]
    split
    · exact isConvertible_ofInt _
    · trivial
  | sentinel | assign | negate => trivial

private theorem isRegular_combineReals (op : Operator) (x y : Binary) :
    IsRegular (combineReals op x y) := by
  cases op <;> trivial

theorem isRegular_apply (op : Operator) (left : a.IsConvertible) (right : b.IsConvertible) :
    IsRegular (apply op a b) := by
  rcases promote_eq_ok left right with ⟨m, n, promoted, rfl, rfl⟩ | ⟨x, y, promoted⟩
  · simp only [apply, promoted]
    exact isRegular_combineIntegers op left right
  · simp only [apply, promoted]
    exact isRegular_combineReals op x y

theorem isConvertible_negate (convertible : a.IsConvertible) : a.negate.IsConvertible := by
  cases a with
  | integer n => exact isConvertible_ofInt _
  | real x => trivial

end Number

namespace Environment

def IsConvertible (env : Environment) : Prop :=
  ∀ name v, env.lookup name = some v → v.IsConvertible

theorem isConvertible_empty : empty.IsConvertible :=
  satisfies_empty

theorem isConvertible_assign {env : Environment} {name : String} {v : Number}
    (convertible : env.IsConvertible) (value : v.IsConvertible) :
    (env.assign name v).IsConvertible :=
  satisfies_assign convertible value

end Environment

namespace Expr

variable {env : Environment} {e : Expr}

/-- A well-formed tree is evaluated to a number with a nearest real, or to a fault of the
statement. -/
theorem isRegular_evaluate (convertible : env.IsConvertible) (wellFormed : e.WellFormed) :
    Number.IsRegular (e.evaluate env) := by
  induction e with
  | identifier name =>
    simp only [evaluate]
    cases found : env.lookup name with
    | none => trivial
    | some v => exact convertible name v found
  | integer n => exact Number.isConvertible_ofInt n
  | real x => trivial
  | blank => exact wellFormed.elim
  | unary op operand ih =>
    obtain ⟨rfl, inner⟩ := wellFormed
    have regular := ih inner
    simp only [evaluate, if_true]
    cases result : operand.evaluate env with
    | error fault =>
      rw [result] at regular
      exact regular
    | ok v =>
      rw [result] at regular
      exact Number.isConvertible_negate regular
  | binary op left right ihLeft ihRight =>
    obtain ⟨_, _, inLeft, inRight⟩ := wellFormed
    have first := ihLeft inLeft
    have second := ihRight inRight
    simp only [evaluate]
    -- The operator is checked before the operands, and each operand before the next.
    split
    · trivial
    · split
      · trivial
      · cases leftResult : left.evaluate env with
        | error fault =>
          rw [leftResult] at first
          exact first
        | ok a =>
          rw [leftResult] at first
          cases rightResult : right.evaluate env with
          | error fault =>
            rw [rightResult] at second
            exact second
          | ok b =>
            rw [rightResult] at second
            exact Number.isRegular_apply op first second

private theorem isExpected_of_map {α : Type} {result : Except Fault Number} {f : Number → α}
    {fault : Fault} (regular : Number.IsRegular result) (failed : result.map f = .error fault) :
    fault.IsExpected := by
  cases result with
  | ok v => cases failed
  | error other =>
    cases failed
    exact regular

theorem isExpected_of_execute {fault : Fault} (convertible : env.IsConvertible)
    (wellFormed : e.WellFormed) (failed : e.execute env = .error fault) : fault.IsExpected := by
  cases root : e.isAssignment with
  | false =>
    rw [execute_of_isAssignment_eq_false env root] at failed
    exact isExpected_of_map (isRegular_evaluate convertible wellFormed) failed
  | true =>
    obtain ⟨x, r, rfl⟩ := exists_target wellFormed root
    obtain ⟨_, _, _, right⟩ := wellFormed
    rw [execute_assign] at failed
    exact isExpected_of_map (isRegular_evaluate convertible right) failed

end Expr

end Calculator
