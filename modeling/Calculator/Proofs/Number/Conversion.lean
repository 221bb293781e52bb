import Calculator.Number.Arithmetic
import Calculator.Proofs.Number.Magnitude
import Mathlib.Tactic.NormNum

/-!
# Integers as reals

An integer beside a real is converted first. The conversion fails exactly for the integers
that the double format rounds beyond its largest number, and no calculation makes one.
-/

namespace Calculator

/-- The least magnitude of an integer that is rounded beyond the double format: half a unit of
the last digit above its largest number. -/
def conversionBound : Nat :=
  2 ^ 1024 - 2 ^ 970

namespace Format

variable {format : Format} {q : Rat} {m : Int}

/-- A magnitude less than half a unit above a multiple of the unit is rounded to no more. -/
theorem abs_nearest_le
    (near : |q| < ((m : Rat) + 1 / 2) * (2 : Rat) ^ format.lastExponent q) :
    |format.nearest q| ≤ m * (2 : Rat) ^ format.lastExponent q := by
  have positive : (0 : Rat) < (2 : Rat) ^ format.lastExponent q := zpow_pos (by norm_num) _
  simp only [nearest, abs_mul, abs_of_pos positive]
  generalize (2 : Rat) ^ format.lastExponent q = unit at *
  have scaled : |q / unit| < m + 1 / 2 := by
    rw [abs_div, abs_of_pos positive, div_lt_iff₀ positive]
    exact near
  have moved := abs_roundHalfEven_sub_le (q / unit)
  have total := abs_sub_abs_le_abs_sub (roundHalfEven (q / unit) : Rat) (q / unit)
  have strict : |(roundHalfEven (q / unit) : Rat)| < m + 1 := by linarith
  have bound : |roundHalfEven (q / unit)| ≤ m := Int.lt_add_one_iff.mp (by exact_mod_cast strict)
  exact mul_le_mul_of_nonneg_right (by exact_mod_cast bound) positive.le

/-- A magnitude no less than half a unit below an even multiple of the unit is rounded to no
less. -/
theorem le_abs_nearest (even : m % 2 = 0)
    (far : ((m : Rat) - 1 / 2) * (2 : Rat) ^ format.lastExponent q ≤ |q|) :
    m * (2 : Rat) ^ format.lastExponent q ≤ |format.nearest q| := by
  have positive : (0 : Rat) < (2 : Rat) ^ format.lastExponent q := zpow_pos (by norm_num) _
  simp only [nearest, abs_mul, abs_of_pos positive]
  generalize (2 : Rat) ^ format.lastExponent q = unit at *
  have scaled : (m : Rat) - 1 / 2 ≤ |q / unit| := by
    rw [abs_div, abs_of_pos positive, le_div_iff₀ positive]
    exact far
  exact mul_le_mul_of_nonneg_right (by exact_mod_cast le_abs_roundHalfEven even scaled) positive.le

theorem ofRat_eq_infinity_iff {negative : Bool} :
    format.ofRat q = .infinity negative ↔
      format.largest < |format.nearest q| ∧ negative = decide (q < 0) := by
  simp only [ofRat, rat_abs_eq_abs]
  split
  · next beyond => simp [beyond, eq_comm]
  · next within =>
    split
    · simp only [within, false_and, iff_false, Binary.zero]
      split <;> simp
    · simp [within]

private theorem lastExponent_double_intCast {n : Int} (nonzero : n ≠ 0) :
    double.lastExponent n = Nat.log 2 n.natAbs - 52 := by
  have order : order 2 (n : Rat) = Nat.log 2 n.natAbs := by
    rw [order_eq_log (le_refl 2) (by exact_mod_cast nonzero), ← Int.cast_abs, Int.abs_eq_natAbs,
      Int.cast_natCast, Int.log_natCast]
  simp only [lastExponent, double, order]
  omega

/-! ### The bound of the double format -/

theorem pow_le_conversionBound {k : Nat} (small : k ≤ 1023) : 2 ^ k ≤ conversionBound := by
  calc 2 ^ k ≤ 2 ^ 1023 := pow_le_pow_right₀ (by norm_num) small
    _ ≤ conversionBound := by decide +kernel

theorem conversionBound_le_pow {k : Nat} (large : 1024 ≤ k) : conversionBound ≤ 2 ^ k := by
  calc conversionBound ≤ 2 ^ 1024 := by decide +kernel
    _ ≤ 2 ^ k := pow_le_pow_right₀ (by norm_num) large

private theorem cast_conversionBound : (conversionBound : Rat) = (2 ^ 53 - 1 / 2) * 2 ^ 971 := by
  have product : conversionBound = (2 ^ 54 - 1) * 2 ^ 970 := by decide +kernel
  rw [product, Nat.cast_mul, Nat.cast_pow, Nat.cast_ofNat, pow_succ (2 : Rat) 970]
  generalize (2 : Rat) ^ 970 = power
  norm_num
  ring

theorem largest_double : double.largest = (2 ^ 53 - 1) * 2 ^ 971 := by
  simp only [largest, double]
  norm_num

theorem pow_le_largest_double {k : Nat} (small : k ≤ 1023) : (2 : Rat) ^ k ≤ double.largest := by
  calc (2 : Rat) ^ k ≤ 2 ^ (52 + 971) := pow_le_pow_right₀ (by norm_num) small
    _ = 2 ^ 52 * 2 ^ 971 := pow_add 2 52 971
    _ ≤ double.largest := by
      rw [largest_double]
      exact mul_le_mul_of_nonneg_right (by norm_num) (pow_nonneg (by norm_num) _)

private theorem largest_double_lt_pow {k : Nat} (large : 1024 ≤ k) :
    double.largest < (2 : Rat) ^ k := by
  calc double.largest < 2 ^ 53 * 2 ^ 971 := by
        rw [largest_double]
        exact mul_lt_mul_of_pos_right (by norm_num) (pow_pos (by norm_num) _)
    _ = 2 ^ (53 + 971) := (pow_add 2 53 971).symm
    _ ≤ (2 : Rat) ^ k := pow_le_pow_right₀ (by norm_num) large

/-- In units of its last digit an integer of the double format has at most 53 digits. -/
private theorem pow_eq_units (k : Nat) : (2 : Rat) ^ k = 2 ^ 52 * (2 : Rat) ^ ((k : Int) - 52) := by
  have split : (k : Int) = 52 + (k - 52) := by omega
  calc (2 : Rat) ^ k = (2 : Rat) ^ ((52 : Int) + (k - 52)) := by rw [← zpow_natCast, ← split]
    _ = 2 ^ 52 * (2 : Rat) ^ ((k : Int) - 52) := zpow_add₀ (by norm_num) 52 _

variable {n : Int}

private theorem abs_cast_eq_natAbs : |(n : Rat)| = n.natAbs := by
  rw [Nat.cast_natAbs, Int.cast_abs]

private theorem unit_of_log_eq (nonzero : n ≠ 0) (digits : Nat.log 2 n.natAbs = 1023) :
    (2 : Rat) ^ double.lastExponent n = 2 ^ 971 := by
  rw [lastExponent_double_intCast nonzero, digits]
  norm_num

/-- Below the bound an integer is rounded to a number of the double format. -/
private theorem abs_nearest_double_le (nonzero : n ≠ 0) (small : n.natAbs < conversionBound) :
    |double.nearest n| ≤ double.largest := by
  have below : 2 ^ Nat.log 2 n.natAbs ≤ n.natAbs := Nat.pow_log_le_self 2 (by omega)
  have above : |(n : Rat)| < 2 ^ Nat.log 2 n.natAbs * 2 := by
    rw [abs_cast_eq_natAbs, ← pow_succ]
    exact_mod_cast Nat.lt_pow_succ_log_self (by norm_num) n.natAbs
  -- A power below the leading one leaves room for the carry of the rounding.
  rcases Nat.lt_trichotomy (Nat.log 2 n.natAbs) 1023 with lower | digits | higher
  · have units := pow_eq_units (Nat.log 2 n.natAbs)
    have positive : (0 : Rat) < (2 : Rat) ^ double.lastExponent n := zpow_pos (by norm_num) _
    rw [← lastExponent_double_intCast nonzero] at units
    have near : |double.nearest n| ≤ _ := abs_nearest_le (m := 2 ^ 53) (by
      push_cast
      linarith)
    push_cast at near
    calc |double.nearest n| ≤ 2 ^ (Nat.log 2 n.natAbs + 1) := by rw [pow_succ, units]; linarith
      _ ≤ double.largest := pow_le_largest_double lower
  · have unit := unit_of_log_eq nonzero digits
    have bound : (n.natAbs : Rat) < conversionBound := by exact_mod_cast small
    rw [cast_conversionBound, ← abs_cast_eq_natAbs, ← unit] at bound
    have near : |double.nearest n| ≤ _ := abs_nearest_le (m := 2 ^ 53 - 1) (by
      push_cast
      linarith)
    rw [largest_double, ← unit]
    exact_mod_cast near
  · exact absurd (small.trans_le (conversionBound_le_pow higher)) (Nat.not_lt.mpr below)

/-- From the bound on an integer is rounded beyond the double format. -/
theorem largest_double_lt (large : conversionBound ≤ n.natAbs) :
    double.largest < |double.nearest n| := by
  have nonzero : n ≠ 0 := by
    rintro rfl
    have one : 2 ^ 0 ≤ conversionBound := pow_le_conversionBound (by norm_num)
    exact absurd (one.trans large) (by norm_num)
  have below : (2 : Rat) ^ Nat.log 2 n.natAbs ≤ |(n : Rat)| := by
    rw [abs_cast_eq_natAbs]
    exact_mod_cast Nat.pow_log_le_self 2 (by omega : n.natAbs ≠ 0)
  have above : n.natAbs < 2 ^ (Nat.log 2 n.natAbs + 1) := Nat.lt_pow_succ_log_self (by norm_num) _
  rcases Nat.lt_trichotomy (Nat.log 2 n.natAbs) 1023 with lower | digits | higher
  · exact absurd (above.trans_le (pow_le_conversionBound lower)) (Nat.not_lt.mpr large)
  · have unit := unit_of_log_eq nonzero digits
    have bound : (conversionBound : Rat) ≤ n.natAbs := by exact_mod_cast large
    rw [cast_conversionBound, ← abs_cast_eq_natAbs, ← unit] at bound
    -- Half a unit below the power of two is a tie, and the power is the even neighbour.
    have far : _ ≤ |double.nearest n| := le_abs_nearest (m := 2 ^ 53) (by norm_num) (by
      push_cast
      exact bound)
    refine lt_of_lt_of_le ?_ far
    rw [largest_double, unit]
    exact mul_lt_mul_of_pos_right (by norm_num) (pow_pos (by norm_num) _)
  · have units := pow_eq_units (Nat.log 2 n.natAbs)
    have positive : (0 : Rat) < (2 : Rat) ^ double.lastExponent n := zpow_pos (by norm_num) _
    rw [← lastExponent_double_intCast nonzero] at units
    have far : _ ≤ |double.nearest n| := le_abs_nearest (m := 2 ^ 52) (by norm_num) (by
      push_cast
      linarith)
    push_cast at far
    calc double.largest < 2 ^ Nat.log 2 n.natAbs := largest_double_lt_pow higher
      _ ≤ |double.nearest n| := by rw [units]; exact far

private theorem ofRat_double_intCast (n : Int) :
    (∃ negative, double.ofRat n = .infinity negative) ↔ conversionBound ≤ n.natAbs := by
  simp only [ofRat_eq_infinity_iff, exists_and_left, exists_eq, and_true]
  constructor
  · intro beyond
    by_contra small
    by_cases zero : n = 0
    · have fixed : roundHalfEven 0 = 0 := roundHalfEven_intCast 0
      have vanishes : double.nearest n = 0 := by simp [zero, nearest, fixed]
      have nonneg : (2 : Rat) ^ 0 ≤ double.largest := pow_le_largest_double (by norm_num)
      rw [vanishes, abs_zero] at beyond
      linarith
    · exact absurd (abs_nearest_double_le zero (Nat.lt_of_not_le small)) (not_le.mpr beyond)
  · exact largest_double_lt

end Format

namespace Number

/-- The conversion of an integer fails from the bound on, and only with an overflow. -/
theorem realOfInt_eq_error_iff {n : Int} {fault : Fault} :
    realOfInt n = .error fault ↔ fault = .integerTooLarge ∧ conversionBound ≤ n.natAbs := by
  rw [← Format.ofRat_double_intCast]
  unfold realOfInt
  split
  · next negative infinite => simp [infinite, eq_comm]
  · next finite =>
    constructor
    · intro failed
      cases failed
    · rintro ⟨_, negative, infinite⟩
      exact absurd infinite (finite negative)

end Number

end Calculator
