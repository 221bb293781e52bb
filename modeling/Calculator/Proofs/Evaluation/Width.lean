import Calculator.Proofs.Evaluation.Assignment
import Calculator.Proofs.Number.Rounding

/-!
# The width of numbers

Every calculation ends with a wrap or with a rounding, so that its number has 32 bits whatever
the operands were. A tree therefore has a number of 32 bits as soon as the numbers of the
environment have.
-/

namespace Calculator

/-! ### Wrapping -/

theorem wrap_of_range {n : Int} (lower : smallestInteger ≤ n) (upper : n ≤ largestInteger) :
    wrap n = n := by
  simp only [smallestInteger, largestInteger] at lower upper
  apply Int.bmod_eq_of_le
  · simp only [wordCount]
    omega
  · simp only [wordCount]
    omega

theorem wrap_neg_wrap (n : Int) : wrap (-wrap n) = wrap (-n) := by
  rw [wrap, wrap, Int.bmod_neg_bmod, wrap]

namespace Number

theorem fits_ofInt (n : Int) : (ofInt n).Fits :=
  wrap_range n

theorem fits_ofBinary (x : Binary) : (ofBinary x).Fits :=
  Format.round_round (by decide) x

variable {op : Operator} {v : Number}

private theorem fits_power {pair : Promoted} (raised : power pair = .ok v) : v.Fits := by
  cases pair with
  | reals base exponent =>
    cases raised
    exact fits_ofBinary _
  | integers base exponent =>
    simp only [power] at raised
    split at raised
    · cases raised
      exact fits_ofInt _
    · -- A negative exponent leaves the integers.
      split at raised
      · cases raised
        exact fits_ofBinary _
      · cases raised
      · cases raised

private theorem fits_combineIntegers {a b : Int} (combined : combineIntegers op a b = .ok v) :
    v.Fits := by
  cases op with
  | plus | minus | multiply =>
    cases combined
    exact fits_ofInt _
  | divide =>
    simp only [combineIntegers] at combined
    split at combined
    · cases combined
    · cases combined
      exact fits_ofInt _
  | power =>
    have raised : power (.integers a b) = .ok v := combined
    exact fits_power raised
  | sentinel | assign | negate => cases combined

private theorem fits_combineReals {a b : Binary} (combined : combineReals op a b = .ok v) :
    v.Fits := by
  cases op with
  | plus | minus | multiply | divide =>
    cases combined
    exact fits_ofBinary _
  | power =>
    have raised : power (.reals a b) = .ok v := combined
    exact fits_power raised
  | sentinel | assign | negate => cases combined

/-- No operand has to fit for the result to fit. -/
theorem fits_apply {a b : Number} (applied : apply op a b = .ok v) : v.Fits := by
  unfold apply at applied
  split at applied
  · cases applied
  · exact fits_combineIntegers applied
  · exact fits_combineReals applied

theorem fits_negate (a : Number) : a.negate.Fits := by
  cases a with
  | integer n => exact fits_ofInt _
  | real x => exact fits_ofBinary _

end Number

namespace Environment

def Fits (env : Environment) : Prop :=
  env.Satisfies Number.Fits

end Environment

/-- Only a name alone takes its number from the environment. Every other node makes a new one. -/
theorem Expr.fits_of_evaluate {env : Environment} {e : Expr} {v : Number}
    (made : e.isIdentifier = false) (evaluated : e.evaluate env = .ok v) : v.Fits := by
  cases e with
  | identifier name => cases made
  | integer n =>
    cases evaluated
    exact Number.fits_ofInt n
  | real x =>
    cases evaluated
    exact Number.fits_ofBinary x
  | blank => cases evaluated
  | unary op operand =>
    obtain ⟨_, a, _, rfl⟩ := evaluate_unary_eq_ok evaluated
    exact Number.fits_negate a
  | binary op left right =>
    obtain ⟨_, _, a, b, _, _, applied⟩ := evaluate_binary_eq_ok evaluated
    exact Number.fits_apply applied

/-- What holds of the numbers of 32 bits and of those of the environment holds of the number of a
tree. -/
theorem Expr.satisfies_evaluate {env : Environment} {property : Number → Prop} {e : Expr}
    {v : Number} (satisfies : env.Satisfies property) (new : ∀ a : Number, a.Fits → property a)
    (evaluated : e.evaluate env = .ok v) : property v := by
  cases root : e.isIdentifier with
  | false => exact new v (fits_of_evaluate root evaluated)
  | true =>
    cases e with
    | identifier name =>
      simp only [evaluate] at evaluated
      split at evaluated
      · next found =>
        cases evaluated
        exact satisfies name v found
      · cases evaluated
    | integer | real | unary | binary | blank => cases root

theorem Expr.fits_evaluate {env : Environment} {e : Expr} {v : Number} (fits : env.Fits)
    (evaluated : e.evaluate env = .ok v) : v.Fits :=
  satisfies_evaluate fits (fun _ => id) evaluated

end Calculator
