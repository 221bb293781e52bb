import Calculator.Proofs.Number.Readings
import Mathlib.Algebra.Order.Group.Pointwise.Interval

/-!
# Rationals that are read as a number, on both sides of it

Between two powers of two a format keeps the multiples of one unit, so that rounding is symmetric
about each of them. A number of the single format with a unit of room to either power is symmetric
for both formats at once, and the rationals that are read as it extend equally far on both sides.
Powers of two are the other numbers: below them the unit is half as large.

## Main results

- `Format.nearest_reflect`: rounding is symmetric about a multiple of the unit.
- `Inner.readsAs_of_abs_sub_le`: what is no farther from such a number is read as it, too.
- `Format.Holds.power_or_inner`: all other numbers are powers of two.
-/

namespace Calculator

open Format

variable {q r s : Rat} {k e : Int}

/-- Between two powers of two rounding is symmetric about the multiples of the unit. -/
theorem Format.nearest_reflect {format : Format} (precise : 0 < format.precision)
    (least : format.leastExponent ≤ e) (multiple : q = k * 2 ^ e) (nonneg : 0 ≤ q - s)
    (lower : e = format.leastExponent ∨ (2 : Rat) ^ (e + (format.precision - 1 : Nat)) ≤ q - s)
    (upper : q + s ≤ 2 ^ (e + format.precision)) (near : |r - q| ≤ s) :
    format.nearest (2 * q - r) = 2 * q - format.nearest r := by
  have unit : (0 : Rat) < 2 ^ e := zpow_pos (by norm_num) _
  -- As far as the interval reaches, rounding takes the multiples of the one unit.
  have inside {t : Rat} (close : |t - q| ≤ s) :
      format.nearest t = roundHalfEven (t / 2 ^ e) * 2 ^ e := by
    rw [abs_le] at close
    have positive : 0 ≤ t := by linarith
    refine nearest_eq_of_between precise least ?_ ?_ <;> rw [abs_of_nonneg positive]
    · exact lower.imp_right fun leading => by linarith
    · linarith
  have mirrored : |2 * q - r - q| ≤ s := by
    rw [← abs_neg]
    convert near using 2
    ring
  have quotient : (2 * q - r) / 2 ^ e = 2 * k - r / 2 ^ e := by
    rw [multiple]
    field_simp
  rw [inside mirrored, inside near, quotient, roundHalfEven_reflect, multiple]
  push_cast
  ring

/-! ### Numbers between two powers of two -/

/-- A number of the single format between two powers of two: `k` units of the last digit, with one
unit of room to either power. -/
structure Inner (q : Rat) (k e : Int) : Prop where
  multiple : q = k * 2 ^ e
  least : -149 ≤ e
  digits : ∃ p : Nat, p < 24 ∧ (e = -149 ∨ p = 23) ∧ 2 ^ p + 1 ≤ k ∧ k + 1 ≤ 2 ^ (p + 1)

namespace Inner

variable (inner : Inner q k e)

include inner

/-- Both formats are symmetric about the number as far as the next numbers. -/
theorem nearest_reflect (near : |r - q| ≤ 2 ^ e) :
    single.nearest (2 * q - r) = 2 * q - single.nearest r ∧
      double.nearest (2 * q - r) = 2 * q - double.nearest r := by
  obtain ⟨p, small, position, lower, upper⟩ := inner.digits
  have unit : (0 : Rat) < 2 ^ e := zpow_pos (by norm_num) _
  have lower : (2 : Rat) ^ p + 1 ≤ k := by exact_mod_cast lower
  have upper : (k : Rat) + 1 ≤ 2 ^ (p + 1) := by exact_mod_cast upper
  have power : (0 : Rat) < 2 ^ p := by positivity
  have below : (2 : Rat) ^ p * 2 ^ e ≤ q - 2 ^ e := by
    rw [inner.multiple]
    linarith [mul_le_mul_of_nonneg_right lower unit.le]
  have above : q + 2 ^ e ≤ 2 ^ (p + 1) * 2 ^ e := by
    rw [inner.multiple]
    linarith [mul_le_mul_of_nonneg_right upper unit.le]
  have nonneg : 0 ≤ q - 2 ^ e := (mul_pos power unit).le.trans below
  have least := inner.least
  constructor
  · -- The unit is the last digit of the single format; at the bottom fewer digits will do.
    refine Format.nearest_reflect single_precise least inner.multiple nonneg ?_ ?_ near
    · rcases position with bottom | full
      · exact .inl bottom
      · right
        rw [full, ← zpow_natCast, ← zpow_add₀ (by norm_num), add_comm] at below
        exact below
    · refine above.trans ?_
      rw [← zpow_natCast, ← zpow_add₀ (by norm_num)]
      refine zpow_le_zpow_right₀ (by norm_num) ?_
      simp only [single]
      omega
  · -- The double format keeps the digits down to a unit that is finer by what the number lacks.
    have multiple : q = (k * 2 ^ (52 - p) : Int) * (2 : Rat) ^ (e + p - 52) := by
      have shift : e = (52 - p : Nat) + (e + p - 52) := by omega
      rw [inner.multiple]
      nth_rewrite 1 [shift]
      rw [zpow_add₀ (by norm_num), zpow_natCast]
      push_cast
      ring
    refine Format.nearest_reflect double_precise ?_ multiple nonneg (.inr ?_) ?_ near
    · simp only [double]
      omega
    · rw [← zpow_natCast, ← zpow_add₀ (by norm_num)] at below
      convert below using 2
      simp only [double]
      omega
    · rw [← zpow_natCast, ← zpow_add₀ (by norm_num)] at above
      convert above using 2
      simp only [double]
      push_cast
      omega

/-- The next numbers on either side are numbers of the single format. -/
private theorem holds_next : single.Holds (q - 2 ^ e) ∧ single.Holds (q + 2 ^ e) := by
  obtain ⟨p, small, -, lower, upper⟩ := inner.digits
  have power : (2 : Int) ^ (p + 1) ≤ 2 ^ 24 := pow_le_pow_right₀ (by norm_num) small
  have positive : (0 : Int) < 2 ^ p := by positivity
  refine ⟨⟨k - 1, e, ?_, ?_, inner.least⟩, ?_⟩
  · rw [inner.multiple]
    push_cast
    ring
  · rw [abs_of_nonneg (by omega)]
    exact lt_of_lt_of_le (by omega) power
  · -- The upper one may be the power of two itself.
    rcases upper.lt_or_eq with below | equal
    · refine ⟨k + 1, e, ?_, ?_, inner.least⟩
      · rw [inner.multiple]
        push_cast
        ring
      · rw [abs_of_nonneg (by omega)]
        exact below.trans_le power
    · have next : q + 2 ^ e = 2 ^ (e + (p + 1 : Nat)) := by
        have equal : (k : Rat) + 1 = 2 ^ (p + 1) := by exact_mod_cast equal
        rw [inner.multiple, zpow_add₀ (by norm_num), zpow_natCast, ← equal]
        ring
      rw [next]
      have least := inner.least
      exact holds_zpow single_precise (by simp only [single]; omega)

/-- What is read as the number is not beyond the next ones. -/
private theorem within_unit (reads : ReadsAs q r) : |r - q| ≤ 2 ^ e := by
  obtain ⟨before, after⟩ := inner.holds_next
  have unit : (0 : Rat) < 2 ^ e := zpow_pos (by norm_num) _
  rw [abs_le]
  constructor
  · by_contra beyond
    have passed := reads.ge_of_ge before (by linarith)
    linarith
  · by_contra beyond
    have passed := reads.le_of_le after (by linarith)
    linarith

private theorem readsAs_reflect (reads : ReadsAs q r) : ReadsAs q (2 * q - r) := by
  obtain ⟨before, after⟩ := inner.holds_next
  have near := inner.within_unit reads
  -- Rounding to the double format does not leave the interval either.
  have widened : |double.nearest r - q| ≤ 2 ^ e := by
    rw [abs_le] at near ⊢
    have low := nearest_mono double_precise (by linarith : q - 2 ^ e ≤ r)
    have high := nearest_mono double_precise (by linarith : r ≤ q + 2 ^ e)
    rw [nearest_of_holds before.widen] at low
    rw [nearest_of_holds after.widen] at high
    constructor <;> linarith
  rw [ReadsAs] at reads ⊢
  rw [(inner.nearest_reflect near).2, (inner.nearest_reflect widened).1, reads]
  ring

/-- What is no farther from the number is read as it, too. -/
theorem readsAs_of_abs_sub_le (reads : ReadsAs q r) (near : |s - q| ≤ |r - q|) : ReadsAs q s := by
  have between := (ordConnected_readsAs q).uIcc_subset reads (inner.readsAs_reflect reads)
  apply between
  rcases le_total q r with right | left
  · rw [abs_of_nonneg (by linarith : 0 ≤ r - q), abs_le] at near
    exact Set.mem_uIcc_of_ge (by linarith) (by linarith)
  · rw [abs_of_nonpos (by linarith : r - q ≤ 0), abs_le] at near
    exact Set.mem_uIcc_of_le (by linarith) (by linarith)

end Inner

/-- Numbers of the single format are powers of two or between two of them. -/
theorem Format.Holds.power_or_inner (holds : single.Holds q) (positive : 0 < q) :
    (∃ p : Nat, q = 2 ^ ((p : Int) - 149)) ∨ ∃ k e, Inner q k e := by
  obtain ⟨k, multiple, small⟩ := holds.exists_digits single_precise
  have unit := single.unit_pos q
  have least := single.leastExponent_le q
  have leading (above : single.leastExponent < single.lastExponent q) : (2 : Rat) ^ 23 ≤ k := by
    have leading := units_le_abs positive.ne' above
    rw [abs_of_pos positive] at leading
    refine le_of_mul_le_mul_right ?_ unit
    rw [← multiple]
    exact leading
  obtain ⟨e, last⟩ : ∃ e, single.lastExponent q = e := ⟨_, rfl⟩
  rw [last] at multiple unit least leading
  have nonneg : 0 < k := by
    rw [multiple] at positive
    exact_mod_cast pos_of_mul_pos_left positive unit.le
  obtain ⟨m, rfl⟩ : ∃ m : Nat, k = m := ⟨k.toNat, by omega⟩
  have nonzero : m ≠ 0 := by omega
  have below := Nat.pow_log_le_self 2 nonzero
  have above := Nat.lt_pow_succ_log_self (by norm_num : 1 < 2) m
  have few : Nat.log 2 m < 24 := by
    rw [abs_of_pos nonneg] at small
    refine (Nat.pow_lt_pow_iff_right (by norm_num : 1 < 2)).mp (below.trans_lt ?_)
    exact_mod_cast small
  generalize Nat.log 2 m = p at *
  simp only [single] at least leading
  -- With any digit beside the leading one, both neighbours are between the two powers.
  rcases below.eq_or_lt with power | inside
  · left
    refine ⟨(p + e + 149).toNat, ?_⟩
    have exponent : (((p + e + 149).toNat : Nat) : Int) - 149 = p + e := by omega
    rw [multiple, exponent, zpow_add₀ (by norm_num), zpow_natCast, ← power]
    push_cast
    ring
  · right
    refine ⟨m, e, multiple, least, p, few, ?_, by exact_mod_cast inside, by exact_mod_cast above⟩
    rcases least.eq_or_lt with bottom | full
    · exact .inl bottom.symm
    · right
      have leading : 2 ^ 23 ≤ m := by exact_mod_cast leading full
      have many := (Nat.pow_lt_pow_iff_right (by norm_num : 1 < 2)).mp (leading.trans_lt above)
      omega

end Calculator
