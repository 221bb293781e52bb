import Calculator.Number.Arithmetic
import Calculator.Proofs.Number.Conversion
import Calculator.Proofs.Number.ExactResults
import Calculator.Proofs.Statement.RoundTrip

/-!
# Arithmetic of reals

Reals are combined in the double format and the result is rounded to the single one. For sums,
differences, products and quotients this is the operation of the single format itself: the exact
result rounded once. An integer beside a real is rounded first.

## Main result

`reals_are_rounded_once`: each of the four operations on reals, and on an integer and a real, gives
the exact result rounded once to the single format.
-/

namespace Calculator

namespace Operator

/-- The exact result of an operation on rationals. -/
def onRationals? : Operator → Option (Rat → Rat → Rat)
  | plus => some (· + ·)
  | minus => some (· - ·)
  | multiply => some (· * ·)
  | divide => some (· / ·)
  | _ => none

end Operator

namespace Format

variable {a b : Binary} {q : Rat}

def operation? (format : Format) : Operator → Option (Binary → Binary → Binary)
  | .plus => some format.add
  | .minus => some format.sub
  | .multiply => some format.mul
  | .divide => some format.div
  | _ => none

/-! ### Numbers of the single format -/

private theorem round_ofRat_double (plain : ¬ double.Misleads single q) :
    single.round (double.ofRat q) = single.ofRat q :=
  (round_ofRat_iff double_refines_single q).mpr plain

/-! ### Operations of the single format -/

/-- What is a number of the single format is not moved on the way. -/
theorem round_ofRat_double_self (fits : single.round (.number q) = .number q) :
    single.round (double.ofRat q) = single.ofRat q :=
  round_ofRat_double (not_misleads_of_holds (holds_of_ofRat_self single_precise fits).widen)

theorem round_add (first : single.round a = a) (second : single.round b = b) :
    single.round (double.add a b) = single.add a b := by
  -- Exceptional data have the same sum in both formats; numbers are rounded in both.
  cases a with
  | nan => rfl
  | infinity negative =>
    cases b with
    | infinity other =>
      simp only [add]
      split_ifs <;> rfl
    | number | negativeZero | nan => rfl
  | negativeZero =>
    cases b with
    | number r => exact round_ofRat_double_self second
    | negativeZero | infinity | nan => rfl
  | number q =>
    cases b with
    | number r =>
      exact round_ofRat_double (not_misleads_add (holds_of_ofRat_self single_precise first)
        (holds_of_ofRat_self single_precise second))
    | negativeZero => exact round_ofRat_double_self first
    | infinity | nan => rfl

theorem round_sub (first : single.round a = a) (second : single.round b = b) :
    single.round (double.sub a b) = single.sub a b :=
  round_add first ((single.round_negate b).trans (congrArg _ second))

theorem round_mul (first : single.round a = a) (second : single.round b = b) :
    single.round (double.mul a b) = single.mul a b := by
  cases a with
  | nan => rfl
  | infinity negative =>
    cases b with
    | number r =>
      simp only [mul]
      split_ifs <;> rfl
    | infinity | negativeZero | nan => rfl
  | negativeZero =>
    cases b with
    | infinity | nan => rfl
    | number | negativeZero => exact round_zero single _
  | number q =>
    cases b with
    | infinity negative =>
      simp only [mul]
      split_ifs <;> rfl
    | nan => rfl
    | negativeZero => exact round_zero single _
    | number r =>
      simp only [mul]
      split_ifs
      · exact round_zero single _
      · exact round_ofRat_double (not_misleads_mul (holds_of_ofRat_self single_precise first)
          (holds_of_ofRat_self single_precise second))

theorem round_div (first : single.round a = a) (second : single.round b = b) :
    single.round (double.div a b) = single.div a b := by
  cases a with
  | nan => rfl
  | infinity negative => cases b <;> rfl
  | negativeZero =>
    cases b with
    | infinity => exact round_zero single _
    | nan | negativeZero => rfl
    | number r =>
      simp only [div]
      split_ifs
      · rfl
      · exact round_zero single _
  | number q =>
    cases b with
    | infinity => exact round_zero single _
    | nan => rfl
    | negativeZero =>
      simp only [div]
      split_ifs <;> rfl
    | number r =>
      simp only [div]
      split_ifs with zero
      · rfl
      · rfl
      · exact round_zero single _
      · have fits : single.ofRat r = .number r := second
        exact round_ofRat_double (not_misleads_div (holds_of_ofRat_self single_precise first)
          (holds_of_ofRat_self single_precise second) zero
          ((ofRat_self_iff single_precise zero).mp fits).2)

/-! ### Exact results -/

/-- The datum is the exact result rounded to the format; an exact zero has either sign. -/
def Rounds (format : Format) (q : Rat) (x : Binary) : Prop :=
  (q ≠ 0 → x = format.ofRat q) ∧ (q = 0 → ∃ negative, x = .zero negative)

variable {format : Format} {op : Operator} {operation : Binary → Binary → Binary}
  {exact : Rat → Rat → Rat}

theorem rounds_ofRat (format : Format) (q : Rat) : format.Rounds q (format.ofRat q) := by
  refine ⟨fun _ => rfl, ?_⟩
  rintro rfl
  exact ⟨false, format.ofRat_zero⟩

theorem rounds_zero (format : Format) (negative : Bool) : format.Rounds 0 (.zero negative) :=
  ⟨fun nonzero => absurd rfl nonzero, fun _ => ⟨negative, rfl⟩⟩

theorem rounds_add (first : a.IsFinite) (second : b.IsFinite) :
    format.Rounds (a.toRat + b.toRat) (format.add a b) := by
  cases a with
  | infinity | nan => cases first
  | negativeZero =>
    cases b with
    | infinity | nan => cases second
    | negativeZero =>
      simp only [Binary.toRat, add_zero]
      exact format.rounds_zero true
    | number r =>
      simp only [Binary.toRat, zero_add]
      exact format.rounds_ofRat r
  | number q =>
    cases b with
    | infinity | nan => cases second
    | negativeZero =>
      simp only [Binary.toRat, add_zero]
      exact format.rounds_ofRat q
    | number r => exact format.rounds_ofRat (q + r)

theorem rounds_sub (first : a.IsFinite) (second : b.IsFinite) :
    format.Rounds (a.toRat - b.toRat) (format.sub a b) := by
  obtain ⟨finite, value⟩ : b.negate.IsFinite ∧ b.negate.toRat = -b.toRat := by
    cases b with
    | infinity | nan => cases second
    | negativeZero => exact ⟨trivial, neg_zero.symm⟩
    | number r =>
      by_cases zero : r = 0 <;> simp [Binary.negate, Binary.IsFinite, Binary.toRat, zero]
  rw [sub_eq_add_neg, ← value]
  exact rounds_add first finite

theorem rounds_mul (first : a.IsFinite) (second : b.IsFinite) :
    format.Rounds (a.toRat * b.toRat) (format.mul a b) := by
  cases a with
  | infinity | nan => cases first
  | negativeZero =>
    simp only [Binary.toRat, zero_mul]
    cases b with
    | infinity | nan => cases second
    | negativeZero | number => exact format.rounds_zero _
  | number q =>
    cases b with
    | infinity | nan => cases second
    | negativeZero =>
      simp only [Binary.toRat, mul_zero]
      exact format.rounds_zero _
    | number r =>
      simp only [Binary.toRat, mul]
      split_ifs with zero
      · rw [mul_eq_zero.mpr zero]
        exact format.rounds_zero _
      · exact format.rounds_ofRat (q * r)

theorem rounds_div (first : a.IsFinite) (second : b.IsFinite) (divisor : b.toRat ≠ 0) :
    format.Rounds (a.toRat / b.toRat) (format.div a b) := by
  cases b with
  | infinity | nan => cases second
  | negativeZero => exact absurd rfl divisor
  | number r =>
    have divisor : r ≠ 0 := divisor
    cases a with
    | infinity | nan => cases first
    | negativeZero =>
      simp only [Binary.toRat, zero_div, div, if_neg divisor]
      exact format.rounds_zero _
    | number q =>
      simp only [Binary.toRat, div, if_neg divisor]
      split_ifs with zero
      · rw [zero, zero_div]
        exact format.rounds_zero _
      · exact format.rounds_ofRat (q / r)

/-- On finite data an operation rounds the exact result. -/
theorem rounds_operation (spelled : format.operation? op = some operation)
    (exactly : op.onRationals? = some exact) (first : a.IsFinite) (second : b.IsFinite)
    (divisor : op = .divide → b.toRat ≠ 0) :
    format.Rounds (exact a.toRat b.toRat) (operation a b) := by
  cases op with
  | sentinel | assign | negate | power => cases spelled
  | plus =>
    cases spelled
    cases exactly
    exact rounds_add first second
  | minus =>
    cases spelled
    cases exactly
    exact rounds_sub first second
  | multiply =>
    cases spelled
    cases exactly
    exact rounds_mul first second
  | divide =>
    cases spelled
    cases exactly
    exact rounds_div first second (divisor rfl)

/-- A quotient by zero is an infinity with the sign of the quotient, unless the dividend is zero or
no number. -/
theorem div_zero_eq (finite : b.IsFinite) (zero : b.toRat = 0) :
    (a = .nan ∨ a.IsFinite ∧ a.toRat = 0 → format.div a b = .nan) ∧
      (¬ (a = .nan ∨ a.IsFinite ∧ a.toRat = 0) →
        format.div a b = .infinity (a.isNegative != b.isNegative)) := by
  have divisor : b = .negativeZero ∨ b = .number 0 := by
    cases b with
    | infinity | nan => cases finite
    | negativeZero => exact .inl rfl
    | number r => exact .inr (congrArg _ zero)
  rcases divisor with rfl | rfl <;> cases a <;>
    simp +contextual [div, Binary.IsFinite, Binary.toRat]

end Format

namespace Number

open Format

variable {op : Operator} {operation : Binary → Binary → Binary} {a b x : Binary} {n : Int}

theorem combineReals_eq (spelled : single.operation? op = some operation)
    (first : single.round a = a) (second : single.round b = b) :
    combineReals op a b = .ok (.real (operation a b)) := by
  cases op with
  | sentinel | assign | negate | power => cases spelled
  | plus =>
    cases spelled
    simp only [combineReals, ofBinary, round_add first second]
  | minus =>
    cases spelled
    simp only [combineReals, ofBinary, round_sub first second]
  | multiply =>
    cases spelled
    simp only [combineReals, ofBinary, round_mul first second]
  | divide =>
    cases spelled
    simp only [combineReals, ofBinary, Binary.quotient_eq, round_div first second]

private theorem round_of_realOfInt (converted : realOfInt n = .ok x) : single.round x = x := by
  simp only [realOfInt] at converted
  split at converted
  · cases converted
  · cases converted
    exact round_round single_precise _

private theorem apply_mixed (spelled : single.operation? op = some operation)
    (converted : realOfInt n = .ok x) (fits : single.round b = b) :
    apply op (.integer n) (.real b) = .ok (.real (operation x b)) ∧
      apply op (.real b) (.integer n) = .ok (.real (operation b x)) := by
  have own := round_of_realOfInt converted
  simp only [apply, promote, converted, fits]
  exact ⟨combineReals_eq spelled own fits, combineReals_eq spelled fits own⟩

/-- An integer with no more digits than the double format has becomes the nearest real. -/
theorem realOfInt_eq_ofRat (small : n.natAbs < 2 ^ 53) : realOfInt n = .ok (single.ofRat n) := by
  by_cases zero : n = 0
  · subst zero
    simp only [realOfInt, Int.cast_zero, ofRat_zero]
    exact congrArg Except.ok single.ofRat_zero
  have digits : |n| < 2 ^ double.precision := by
    rw [Int.abs_eq_natAbs]
    exact_mod_cast small
  have holds : double.Holds n := ⟨n, 0, by simp, digits, by decide⟩
  have bounded : |(n : Rat)| ≤ double.largest := by
    have size : |(n : Rat)| < 2 ^ 53 := by exact_mod_cast digits
    exact size.le.trans (pow_le_largest_double (by norm_num))
  have nonzero : (n : Rat) ≠ 0 := by exact_mod_cast zero
  have widened : double.ofRat n = .number n :=
    (ofRat_self_iff double_precise nonzero).mpr ⟨holds, bounded⟩
  have rounded := round_ofRat_double (not_misleads_of_holds holds)
  rw [widened] at rounded
  simp only [realOfInt, widened, rounded]

end Number

/-- The operations on reals, and on an integer and a real, are those of the single format: the exact
result is rounded once. -/
theorem reals_are_rounded_once {op : Operator} {operation : Binary → Binary → Binary}
    {exact : Rat → Rat → Rat} (spelled : Format.single.operation? op = some operation)
    (exactly : op.onRationals? = some exact) :
    (∀ a b, Format.single.round a = a → Format.single.round b = b →
      Number.apply op (.real a) (.real b) = .ok (.real (operation a b))) ∧
    (∀ a b : Binary, a.IsFinite → b.IsFinite → (op = .divide → b.toRat ≠ 0) →
      Format.single.Rounds (exact a.toRat b.toRat) (operation a b)) ∧
    (∀ n x b, Number.realOfInt n = .ok x → Format.single.round b = b →
      Number.apply op (.integer n) (.real b) = .ok (.real (operation x b)) ∧
        Number.apply op (.real b) (.integer n) = .ok (.real (operation b x))) ∧
    (∀ n : Int, n.natAbs < 2 ^ 53 → Number.realOfInt n = .ok (Format.single.ofRat n)) ∧
    (op = .divide → ∀ a b : Binary, b.IsFinite → b.toRat = 0 →
      (a = .nan ∨ a.IsFinite ∧ a.toRat = 0 → operation a b = .nan) ∧
      (¬ (a = .nan ∨ a.IsFinite ∧ a.toRat = 0) →
        operation a b = .infinity (a.isNegative != b.isNegative))) := by
  refine ⟨?_, ?_, ?_, ?_, ?_⟩
  · intro a b first second
    exact Number.combineReals_eq spelled first second
  · intro a b first second divisor
    exact Format.rounds_operation spelled exactly first second divisor
  · intro n x b converted fits
    exact Number.apply_mixed spelled converted fits
  · intro n small
    exact Number.realOfInt_eq_ofRat small
  · rintro rfl a b finite zero
    cases spelled
    exact Format.div_zero_eq finite zero

/-- A third, an integer too long for the single format, and a negative zero as divisor. -/
theorem third_is_rounded_once :
    Format.single.operation? .divide = some Format.single.div ∧
    Operator.onRationals? .divide = some (· / ·) ∧
    Number.apply .divide (.real (.number 1)) (.real (.number 3))
      = .ok (.real (Format.single.ofRat (1 / 3))) ∧
    Number.apply .divide (.integer 16777217) (.real (.number 3))
      = .ok (.real (Format.single.ofRat (16777216 / 3))) ∧
    Number.apply .divide (.real (.number 1)) (.real .negativeZero)
      = .ok (.real (.infinity true)) := by
  have spelled : Format.single.operation? .divide = some Format.single.div := rfl
  have exactly : Operator.onRationals? .divide = some (· / ·) := rfl
  obtain ⟨reals, values, mixed, integers, zeros⟩ := reals_are_rounded_once spelled exactly
  have one : Format.single.round (.number 1) = .number 1 := by decide +kernel
  have three : Format.single.round (.number 3) = .number 3 := by decide +kernel
  have long : Format.single.ofRat (16777217 : Int) = .number 16777216 := by decide +kernel
  have divisor : Operator.divide = .divide → (Binary.number 3).toRat ≠ 0 := by decide
  refine ⟨spelled, exactly, ?_, ?_, ?_⟩
  · have third := (values (.number 1) (.number 3) trivial trivial divisor).1 (by decide +kernel)
    rw [reals _ _ one three, third]
    rfl
  · have quotient :=
      (values (.number 16777216) (.number 3) trivial trivial divisor).1 (by decide +kernel)
    rw [(mixed _ _ _ (integers 16777217 (by decide)) three).1, long, quotient]
    rfl
  · have zero : Format.single.round .negativeZero = .negativeZero := rfl
    have infinite := (zeros rfl (.number 1) .negativeZero trivial rfl).2
      (by simp [Binary.IsFinite, Binary.toRat])
    rw [reals _ _ one zero, infinite]
    rfl

end Calculator
