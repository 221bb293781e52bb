import Calculator.Number.Magnitude
import Mathlib.Data.Int.Log
import Mathlib.Data.Rat.Floor
import Mathlib.Tactic.Linarith

/-!
# Orders and nearest integers

The order of a rational is its integer logarithm, and rounding to an integer moves a rational
by at most one half. Every bound on a rounded number comes from these two facts.
-/

namespace Calculator

/-! ### Orders -/

/-- The logarithm found by squaring the base is the integer logarithm. -/
theorem floorLog_eq_log {base n : Nat} (large : 2 ≤ base) :
    floorLog base n = Nat.log base n := by
  fun_induction floorLog base n with
  | case1 base h _ half fits ih =>
    have square : 2 ≤ base * base := by nlinarith [h.1]
    have above : n < (base * base) ^ (half + 1) := by
      simp only [half, ih square]
      exact Nat.lt_pow_succ_log_self square n
    rw [← pow_two, ← pow_mul] at above
    exact (Nat.log_eq_of_pow_le_of_lt_pow fits above).symm
  | case2 base h _ half exceeds ih =>
    have square : 2 ≤ base * base := by nlinarith [h.1]
    have positive : n ≠ 0 := by omega
    have below : (base * base) ^ half ≤ n := by
      simp only [half, ih square]
      exact Nat.pow_log_le_self _ positive
    rw [← pow_two, ← pow_mul] at below
    exact (Nat.log_eq_of_pow_le_of_lt_pow below (Nat.lt_of_not_le exceeds)).symm
  | case3 base h =>
    have small : n < base := Nat.lt_of_not_le fun le => h ⟨large, le⟩
    exact (Nat.log_of_lt small).symm

private theorem log_eq_of_zpow_le_of_lt_zpow {base : Nat} {r : Rat} {k : Int} (large : 2 ≤ base)
    (positive : 0 < r) (below : (base : Rat) ^ k ≤ r) (above : r < (base : Rat) ^ (k + 1)) :
    Int.log base r = k := by
  have lower : k ≤ Int.log base r := (Int.zpow_le_iff_le_log large positive).mp below
  have upper : Int.log base r < k + 1 := (Int.lt_zpow_iff_log_lt large positive).mp above
  omega

theorem rat_abs_eq_abs (q : Rat) : q.abs = |q| := by
  rcases le_total 0 q with nonneg | nonpos
  · rw [Rat.abs_of_nonneg nonneg, abs_of_nonneg nonneg]
  · rw [Rat.abs_of_nonpos nonpos, abs_of_nonpos nonpos]

/-- The order of a rational is the logarithm of its magnitude. -/
theorem order_eq_log {base : Nat} {q : Rat} (large : 2 ≤ base) (nonzero : q ≠ 0) :
    order base q = Int.log base |q| := by
  have positive : 0 < |q| := abs_pos.mpr nonzero
  have basePositive : (0 : Rat) < base := by exact_mod_cast (by omega : 0 < base)
  have denPositive : (0 : Rat) < q.den := by exact_mod_cast q.den_pos
  have numerator : q.num.natAbs ≠ 0 := by simpa using nonzero
  have quotient : |q| * q.den = (q.num.natAbs : Rat) := by
    rw [Nat.cast_natAbs, Int.cast_abs, ← Rat.mul_den_eq_num q, abs_mul, Nat.abs_cast]
  have numBelow : (base : Rat) ^ (Nat.log base q.num.natAbs : Int) ≤ q.num.natAbs := by
    exact_mod_cast Nat.pow_log_le_self base numerator
  have numAbove : (q.num.natAbs : Rat) < (base : Rat) ^ (Nat.log base q.num.natAbs + 1 : Int) := by
    exact_mod_cast Nat.lt_pow_succ_log_self large q.num.natAbs
  have denBelow : (base : Rat) ^ (Nat.log base q.den : Int) ≤ q.den := by
    exact_mod_cast Nat.pow_log_le_self base q.den_pos.ne'
  have denAbove : (q.den : Rat) < (base : Rat) ^ (Nat.log base q.den + 1 : Int) := by
    exact_mod_cast Nat.lt_pow_succ_log_self large q.den
  -- The quotient of the leading powers is the leading power itself or the next one above it.
  simp only [order, floorLog_eq_log large, rat_abs_eq_abs]
  generalize (Nat.log base q.num.natAbs : Int) = a at *
  generalize (Nat.log base q.den : Int) = b at *
  have above : |q| < (base : Rat) ^ (a - b + 1) := by
    refine lt_of_mul_lt_mul_right ?_ denPositive.le
    calc |q| * q.den < (base : Rat) ^ (a + 1) := by rw [quotient]; exact numAbove
      _ = (base : Rat) ^ (a - b + 1) * (base : Rat) ^ b := by
        rw [← zpow_add₀ basePositive.ne']; congr 1; omega
      _ ≤ (base : Rat) ^ (a - b + 1) * q.den :=
        mul_le_mul_of_nonneg_left denBelow (zpow_nonneg basePositive.le _)
  split
  · next below => exact (log_eq_of_zpow_le_of_lt_zpow large positive below above).symm
  · next exceeds =>
    have below : (base : Rat) ^ (a - b - 1) ≤ |q| := by
      refine le_of_mul_le_mul_right ?_ denPositive
      calc (base : Rat) ^ (a - b - 1) * q.den
          ≤ (base : Rat) ^ (a - b - 1) * (base : Rat) ^ (b + 1) :=
            mul_le_mul_of_nonneg_left denAbove.le (zpow_nonneg basePositive.le _)
        _ = (base : Rat) ^ a := by rw [← zpow_add₀ basePositive.ne']; congr 1; omega
        _ ≤ |q| * q.den := by rw [quotient]; exact numBelow
    have small : |q| < (base : Rat) ^ (a - b - 1 + 1) := by
      rw [sub_add_cancel]
      exact lt_of_not_ge exceeds
    exact (log_eq_of_zpow_le_of_lt_zpow large positive below small).symm

/-! ### Nearest integers -/

theorem abs_roundHalfEven_sub_le (q : Rat) : |(roundHalfEven q : Rat) - q| ≤ 1 / 2 := by
  have below : (q.floor : Rat) ≤ q := Int.floor_le q
  have above : q < q.floor + 1 := Int.lt_floor_add_one q
  rw [abs_le]
  simp only [roundHalfEven]
  split_ifs <;> constructor <;> push_cast <;> linarith

/-- A magnitude no less than half below an even number is rounded to no less than it. -/
theorem le_abs_roundHalfEven {q : Rat} {m : Int} (even : m % 2 = 0)
    (far : (m : Rat) - 1 / 2 ≤ |q|) : m ≤ |roundHalfEven q| := by
  have above : q < q.floor + 1 := Int.lt_floor_add_one q
  have below : (q.floor : Rat) ≤ q := Int.floor_le q
  rcases le_abs.mp far with right | left
  · refine le_trans ?_ (le_abs_self _)
    have floor : m - 1 ≤ q.floor := Rat.le_floor_iff.mpr (by push_cast; linarith)
    simp only [roundHalfEven]
    split_ifs with near
    -- Only the integer right below is in question, and it is odd: a tie leaves it.
    · by_contra less
      have edge : (q.floor : Rat) = m - 1 := by exact_mod_cast (by omega : q.floor = m - 1)
      linarith
    · omega
    · omega
    · omega
  · refine le_trans ?_ (neg_le_abs _)
    have floor : q.floor < -m + 1 := Rat.floor_lt_iff.mpr (by push_cast; linarith)
    simp only [roundHalfEven]
    split_ifs with near beyond tie
    · omega
    · by_contra less
      have edge : (q.floor : Rat) = -m := by exact_mod_cast (by omega : q.floor = -m)
      linarith
    · omega
    · omega

end Calculator
