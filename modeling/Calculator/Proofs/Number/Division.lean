import Calculator.Proofs.Evaluation.Checks
import Mathlib.Algebra.Order.Group.Int

/-!
# Division of integers

The quotient of the sizes with the sign of both operands is the quotient toward zero: the number
that leaves a remainder smaller than the divisor, with the sign of the dividend. One quotient of
integers of 32 bits is not of 32 bits, that of the smallest one by minus one; every other is kept as
it is by the wrap that ends the division. Only integers refuse a divisor.

## Main result

`integers_divide_toward_zero`: the outcome of a division, for integers and for reals.
-/

namespace Calculator

/-- The quotient toward zero: what is left over is smaller than the divisor and has the sign of the
dividend. -/
def Truncates (a b q : Int) : Prop :=
  ∃ r, a = q * b + r ∧ |r| < |b| ∧ (r = 0 ∨ r.sign = a.sign)

namespace Truncates

variable {a b q k : Int}

/-- A dividend has one quotient toward zero: two remainders of its sign differ by less than the
divisor. -/
theorem unique (first : Truncates a b q) (second : Truncates a b k) : q = k := by
  obtain ⟨r, split, small, sign⟩ := first
  obtain ⟨t, splitOther, smallOther, signOther⟩ := second
  have multiple : (q - k) * b = t - r := by linarith
  have near : |t - r| < |b| := by
    rw [abs_lt] at small smallOther ⊢
    -- Both remainders stand on the side of zero on which the dividend stands.
    rcases lt_trichotomy a 0 with negative | rfl | positive
    · rw [Int.sign_eq_neg_one_of_neg negative] at sign signOther
      have below : r ≤ 0 := sign.elim (·.le) fun side => (Int.sign_eq_neg_one_iff_neg.mp side).le
      have belowOther : t ≤ 0 :=
        signOther.elim (·.le) fun side => (Int.sign_eq_neg_one_iff_neg.mp side).le
      constructor <;> linarith
    · rw [Int.sign_zero] at sign signOther
      have none : r = 0 := sign.elim id Int.sign_eq_zero_iff_zero.mp
      have noneOther : t = 0 := signOther.elim id Int.sign_eq_zero_iff_zero.mp
      constructor <;> linarith
    · rw [Int.sign_eq_one_of_pos positive] at sign signOther
      have above : 0 ≤ r := sign.elim (·.ge) fun side => (Int.sign_eq_one_iff_pos.mp side).le
      have aboveOther : 0 ≤ t :=
        signOther.elim (·.ge) fun side => (Int.sign_eq_one_iff_pos.mp side).le
      constructor <;> linarith
  have equal : t - r = 0 :=
    Int.eq_zero_of_abs_lt_dvd ((abs_dvd _ _).mpr ⟨q - k, by rw [← multiple, mul_comm]⟩) near
  rw [equal] at multiple
  have divisor : b ≠ 0 := by
    rintro rfl
    exact absurd small (by simp)
  exact sub_eq_zero.mp ((mul_eq_zero.mp multiple).resolve_right divisor)

end Truncates

namespace Number

variable {a b : Int}

/-! ### The quotient of integers -/

theorem quotient_eq_tdiv (a b : Int) : quotient a b = a.tdiv b := by
  have natural (n : Nat) : decide (Int.ofNat n < 0) = false :=
    decide_eq_false (Int.not_lt.mpr n.cast_nonneg)
  have negative (n : Nat) : decide (Int.negSucc n < 0) = true :=
    decide_eq_true (Int.negSucc_lt_zero n)
  cases a with
  | ofNat m =>
    cases b with
    | ofNat n =>
      simp only [quotient, natural]
      rfl
    | negSucc n =>
      simp only [quotient, natural, negative]
      rfl
  | negSucc m =>
    cases b with
    | ofNat n =>
      simp only [quotient, natural, negative]
      rfl
    | negSucc n =>
      simp only [quotient, negative]
      rfl

theorem truncates_quotient (nonzero : b ≠ 0) : Truncates a b (quotient a b) := by
  rw [quotient_eq_tdiv]
  refine ⟨a.tmod b, (Int.tdiv_mul_add_tmod a b).symm, ?_, ?_⟩
  · have small : a.natAbs % b.natAbs < b.natAbs := Nat.mod_lt _ (Int.natAbs_pos.mpr nonzero)
    rw [Int.abs_eq_natAbs, Int.abs_eq_natAbs, Int.natAbs_tmod]
    exact_mod_cast small
  · by_cases exact : b ∣ a
    · exact .inl (Int.tmod_eq_zero_of_dvd exact)
    · right
      rw [Int.sign_tmod, if_neg exact]

private theorem truncates_iff (nonzero : b ≠ 0) {q : Int} : Truncates a b q ↔ q = quotient a b := by
  constructor
  · intro toward
    exact toward.unique (truncates_quotient nonzero)
  · rintro rfl
    exact truncates_quotient nonzero

private theorem quotient_neg_one (a : Int) : quotient a (-1) = -a := by
  rw [quotient_eq_tdiv, Int.tdiv_neg, Int.tdiv_one]

/-- Only the smallest integer over minus one leaves the integers of 32 bits. -/
theorem fits_quotient (fits : (integer a).Fits) (nonzero : b ≠ 0)
    (inside : ¬(a = smallestInteger ∧ b = -1)) : (integer (quotient a b)).Fits := by
  simp only [Fits, smallestInteger, largestInteger] at fits inside ⊢
  by_cases unit : b.natAbs = 1
  · obtain rfl | rfl : b = 1 ∨ b = -1 := Int.natAbs_eq_iff.mp unit
    · rwa [quotient_eq_tdiv, Int.tdiv_one]
    · rw [quotient_neg_one]
      omega
  · -- Every other divisor at least halves the size.
    have size : (quotient a b).natAbs = a.natAbs / b.natAbs := by
      rw [quotient_eq_tdiv]
      exact Int.natAbs_tdiv a b
    have half : a.natAbs / b.natAbs ≤ a.natAbs / 2 := Nat.div_le_div_left (by omega) (by decide)
    omega

/-! ### The outcome of a division -/

private theorem apply_divide_of_ne_zero (nonzero : b ≠ 0) :
    apply .divide (integer a) (integer b) = .ok (integer (wrap (quotient a b))) := by
  simp only [apply, promote, combineIntegers, if_neg nonzero, ofInt]

private theorem apply_divide_eq_error_iff :
    apply .divide (integer a) (integer b) = .error .divisionByZero ↔ b = 0 := by
  constructor
  · intro refused
    by_contra nonzero
    rw [apply_divide_of_ne_zero nonzero] at refused
    cases refused
  · rintro rfl
    rfl

end Number

/-- A division of two integers is refused just for the divisor zero. The smallest integer over minus
one is the smallest integer again; every other quotient is the quotient toward zero itself, without
a wrap. A division with a real on one side or on both is never refused. -/
theorem integers_divide_toward_zero :
    (∀ a b, (Number.integer a).Fits →
      (Number.apply .divide (.integer a) (.integer b) = .error .divisionByZero ↔ b = 0) ∧
      (b ≠ 0 → ∃ q, Number.apply .divide (.integer a) (.integer b) = .ok (.integer q) ∧
        (Number.integer q).Fits ∧
        (a = smallestInteger ∧ b = -1 → q = smallestInteger) ∧
        (¬(a = smallestInteger ∧ b = -1) →
          q = Number.quotient a b ∧ ∀ k, Truncates a b k ↔ k = q))) ∧
    (∀ n x, (Number.integer n).Fits → ∃ y z,
      Number.apply .divide (.integer n) (.real x) = .ok (.real y) ∧
      Number.apply .divide (.real x) (.integer n) = .ok (.real z)) ∧
    ∀ x y, ∃ z, Number.apply .divide (.real x) (.real y) = .ok (.real z) := by
  refine ⟨fun a b fits => ⟨Number.apply_divide_eq_error_iff, fun nonzero => ?_⟩, ?_, ?_⟩
  · refine ⟨wrap (Number.quotient a b), Number.apply_divide_of_ne_zero nonzero, wrap_range _,
      ?_, ?_⟩
    · rintro ⟨rfl, rfl⟩
      rfl
    · intro inside
      obtain ⟨lower, upper⟩ := Number.fits_quotient fits nonzero inside
      rw [wrap_of_range lower upper]
      exact ⟨rfl, fun _ => Number.truncates_iff nonzero⟩
  · intro n x fits
    have convertible := Number.isConvertible_of_fits fits
    have dividend : ∃ y, Number.apply .divide (.integer n) (.real x) = .ok (.real y) :=
      Number.exists_apply_real rfl trivial convertible trivial
    have divisor : ∃ z, Number.apply .divide (.real x) (.integer n) = .ok (.real z) :=
      Number.exists_apply_real rfl trivial trivial convertible
    obtain ⟨y, dividend⟩ := dividend
    obtain ⟨z, divisor⟩ := divisor
    exact ⟨y, z, dividend, divisor⟩
  · intro x y
    exact Number.exists_apply_real rfl trivial trivial trivial

/-- Minus seven over two leaves minus one, where the quotient below would leave one. -/
theorem minusSeven_divides_toward_zero :
    (Number.integer (-7)).Fits ∧
    Number.apply .divide (.integer (-7)) (.integer 2) = .ok (.integer (-3)) ∧
    (Number.integer smallestInteger).Fits ∧
    Number.apply .divide (.integer smallestInteger) (.integer (-1)) =
      .ok (.integer smallestInteger) ∧
    (Number.integer 0).Fits ∧
    ∃ z, Number.apply .divide (.real .negativeZero) (.integer 0) = .ok (.real z) := by
  obtain ⟨ofIntegers, ofPairs, _⟩ := integers_divide_toward_zero
  have seven : (Number.integer (-7)).Fits := ⟨by decide, by decide⟩
  have smallest : (Number.integer smallestInteger).Fits := ⟨by decide, by decide⟩
  have zero : (Number.integer 0).Fits := ⟨by decide, by decide⟩
  have toward : Truncates (-7) 2 (-3) := ⟨-1, by decide, by decide, .inr (by decide)⟩
  refine ⟨seven, ?_, smallest, ?_, zero, ?_⟩
  · obtain ⟨q, divided, -, -, ordinary⟩ := (ofIntegers (-7) 2 seven).2 (by decide)
    rw [divided, ← ((ordinary (by decide)).2 (-3)).mp toward]
  · obtain ⟨q, divided, -, edge, -⟩ := (ofIntegers smallestInteger (-1) smallest).2 (by decide)
    rw [divided, edge ⟨rfl, rfl⟩]
  · obtain ⟨_, z, _, divisor⟩ := ofPairs 0 .negativeZero zero
    exact ⟨z, divisor⟩

end Calculator
