import Calculator.Proofs.Number.DoubleRounding

/-!
# Exact results of operations on single-format numbers

The double format has more than twice the digits of the single one. The exact product of two numbers
of the single format is therefore a number of the double format. An exact sum or quotient need not
be one, but it keeps a distance from every midpoint of the single format that it does not hit, and
rounding to the double format does not bridge it.

## Main results

- `Format.not_misleads_add`, `Format.not_misleads_mul`, `Format.not_misleads_div`: the detour
  through the double format misleads for no sum, product or quotient of single-format numbers.
-/

namespace Calculator.Format

variable {format : Format} {a b q : Rat}

/-! ### Digits -/

/-- A midpoint has one digit more than the format, one place lower. -/
theorem IsMidpoint.exists_digits (midpoint : format.IsMidpoint q) (precise : 0 < format.precision) :
    ∃ n : Int, q = n * (2 : Rat) ^ (format.lastExponent q - 1) ∧
      |n| < 2 ^ (format.precision + 1) := by
  have unit := format.unit_pos q
  have below := abs_lt_units precise q
  have half : (2 : Rat) ^ format.lastExponent q = 2 * 2 ^ (format.lastExponent q - 1) := by
    rw [zpow_sub₀ (by norm_num), zpow_one]
    ring
  rw [IsMidpoint, nearest] at midpoint
  rw [half] at midpoint below unit
  have small : (0 : Rat) < 2 ^ (format.lastExponent q - 1) := by linarith
  generalize roundHalfEven _ = m at midpoint
  generalize (2 : Rat) ^ (format.lastExponent q - 1) = u at *
  have digits (n : Int) (multiple : q = n * u) : |n| < 2 ^ (format.precision + 1) := by
    rw [multiple, abs_mul, abs_of_pos small, ← mul_assoc, ← pow_succ] at below
    exact_mod_cast lt_of_mul_lt_mul_right below small.le
  -- The nearest multiple of the unit is half a unit away, above or below.
  rcases abs_choice ((m : Rat) * (2 * u) - q) with above | beneath
  · rw [above] at midpoint
    have multiple : q = (2 * m - 1 : Int) * u := by
      push_cast
      linarith
    exact ⟨_, multiple, digits _ multiple⟩
  · rw [beneath] at midpoint
    have multiple : q = (2 * m + 1 : Int) * u := by
      push_cast
      linarith
    exact ⟨_, multiple, digits _ multiple⟩

/-- A multiple of a power of two other than zero is no smaller than the power. -/
private theorem zpow_le_abs_of_multiple {n e : Int} (multiple : q = n * (2 : Rat) ^ e)
    (nonzero : q ≠ 0) :
    (2 : Rat) ^ e ≤ |q| := by
  have unit : (0 : Rat) < 2 ^ e := zpow_pos (by norm_num) _
  have digit : n ≠ 0 := by
    rintro rfl
    exact nonzero (by rw [multiple, Int.cast_zero, zero_mul])
  have digit : (1 : Rat) ≤ |(n : Rat)| := by exact_mod_cast Int.one_le_abs digit
  rw [multiple, abs_mul, abs_of_pos unit]
  exact le_mul_of_one_le_left unit.le digit

/-! ### Products -/

private theorem holds_mul (first : single.Holds a) (second : single.Holds b) :
    double.Holds (a * b) := by
  obtain ⟨m, i, rfl, few, low⟩ := first
  obtain ⟨n, j, rfl, some, least⟩ := second
  refine ⟨m * n, i + j, ?_, ?_, ?_⟩
  · rw [zpow_add₀ (by norm_num)]
    push_cast
    ring
  · rw [abs_mul]
    calc |m| * |n| ≤ 2 ^ 24 * 2 ^ 24 :=
          mul_le_mul few.le some.le (abs_nonneg n) (by positivity)
      _ < 2 ^ double.precision := by decide
  · simp only [single] at low least
    simp only [double]
    omega

theorem not_misleads_of_holds {fine coarse : Format} (holds : fine.Holds q) :
    ¬ fine.Misleads coarse q :=
  fun misled => holds.not_crossesMidpoint misled.2

theorem not_misleads_mul (first : single.Holds a) (second : single.Holds b) :
    ¬ double.Misleads single (a * b) :=
  not_misleads_of_holds (holds_mul first second)

/-! ### Sums -/

/-- The exponent of the last digit grows with the magnitude. -/
theorem lastExponent_mono (precise : 0 < format.precision) (nonzero : b ≠ 0) (le : |b| ≤ |a|) :
    format.lastExponent b ≤ format.lastExponent a := by
  have other : a ≠ 0 := abs_pos.mp ((abs_pos.mpr nonzero).trans_le le)
  exact lastExponent_le nonzero (format.leastExponent_le a) (le.trans_lt (abs_lt_zpow precise a))

/-- A sum with more digits than the double format has is so close to its larger part that it is not
rounded to a midpoint. -/
theorem not_isMidpoint_of_near (holds : single.Holds a) (precise : 2 ^ 29 * |q - a| ≤ |q|)
    (normal : (2 : Rat) ^ (-1022 : Int) ≤ |q|) : ¬ single.IsMidpoint (double.nearest q) := by
  intro midpoint
  have moved := abs_nearest_sub_mul_le double_precise normal
  have near := abs_nearest_sub_le_of_holds single_precise holds (double.nearest q)
  have below := abs_lt_units single_precise (double.nearest q)
  rw [IsMidpoint] at midpoint
  rw [mul_comm, ← midpoint] at below
  have apart := abs_sub_le a q (double.nearest q)
  have size := abs_sub_abs_le_abs_sub q (double.nearest q)
  rw [abs_sub_comm] at moved precise
  have digits : (2 : Rat) ^ single.precision = 2 ^ 24 := rfl
  have doubleDigits : (2 : Rat) ^ double.precision = 2 ^ 53 := rfl
  rw [digits] at below
  rw [doubleDigits] at moved
  linarith [abs_nonneg (q - double.nearest q)]

private theorem not_misleads_add_of_le (first : single.Holds a) (second : single.Holds b)
    (le : |b| ≤ |a|) : ¬ double.Misleads single (a + b) := by
  by_cases zero : b = 0
  · rw [zero, add_zero]
    exact not_misleads_of_holds first.widen
  -- Both are multiples of the unit of the smaller one, and so is the sum.
  obtain ⟨n, multiple, few⟩ := second.exists_digits single_precise
  obtain ⟨m, other⟩ := first.exists_multiple (lastExponent_mono single_precise zero le)
  have least : -149 ≤ single.lastExponent b := single.leastExponent_le b
  have small := abs_lt_zpow single_precise b
  have total : a + b = (m + n : Int) * (2 : Rat) ^ single.lastExponent b := by
    rw [Int.cast_add, add_mul, ← multiple, ← other]
  have unit := single.unit_pos b
  generalize single.lastExponent b = e at *
  by_cases fits : |m + n| < 2 ^ double.precision
  · exact not_misleads_of_holds ⟨m + n, e, total, fits, by simp only [double]; omega⟩
  · have large : (2 : Rat) ^ 53 * 2 ^ e ≤ |a + b| := by
      rw [total, abs_mul, abs_of_pos unit]
      exact mul_le_mul_of_nonneg_right (by exact_mod_cast not_lt.mp fits) unit.le
    refine fun misled => not_isMidpoint_of_near first ?_ ?_ misled.2.1
    · have digits : (2 : Rat) ^ (e + (single.precision : Int)) = 2 ^ 24 * 2 ^ e := by
        rw [zpow_add₀ (by norm_num), mul_comm]
        rfl
      rw [digits] at small
      rw [add_sub_cancel_left]
      linarith
    · have tiny : (2 : Rat) ^ (-1022 : Int) ≤ 2 ^ e :=
        zpow_le_zpow_right₀ (by norm_num) (by omega)
      linarith

theorem not_misleads_add (first : single.Holds a) (second : single.Holds b) :
    ¬ double.Misleads single (a + b) := by
  rcases le_total |b| |a| with le | le
  · exact not_misleads_add_of_le first second le
  · rw [add_comm]
    exact not_misleads_add_of_le second first le

/-! ### Quotients -/

/-- A quotient of single-format numbers is far above the least number of the double format. -/
private theorem zpow_le_abs_div (first : single.Holds a) (nonzero : a ≠ 0) (divisor : b ≠ 0)
    (bounded : |b| ≤ single.largest) : (2 : Rat) ^ (-1022 : Int) ≤ |a / b| := by
  obtain ⟨m, multiple⟩ := first.exists_multiple (single.leastExponent_le a)
  have least := zpow_le_abs_of_multiple multiple nonzero
  have greatest : single.largest ≤ 2 ^ (128 : Int) := single.largest_lt_overflow.le
  rw [abs_div, le_div_iff₀ (abs_pos.mpr divisor)]
  calc (2 : Rat) ^ (-1022 : Int) * |b| ≤ 2 ^ (-1022 : Int) * 2 ^ (128 : Int) :=
        mul_le_mul_of_nonneg_left (bounded.trans greatest) (zpow_nonneg (by norm_num) _)
    _ = 2 ^ (-894 : Int) := (zpow_add₀ (by norm_num) _ _).symm
    _ ≤ 2 ^ single.leastExponent := zpow_le_zpow_right₀ (by norm_num) (by decide)
    _ ≤ |a| := least

/-- A number of 25 digits times a divisor of 24 digits does not come so close to a dividend of 24
digits without hitting it. -/
private theorem product_eq_of_near {k m n e i j : Int} (few : |m| < 2 ^ 24) (some : |n| < 2 ^ 24)
    (digits : |k| < 2 ^ 25)
    (close : |k * (2 : Rat) ^ e * (n * 2 ^ j) - m * 2 ^ i| * 2 ^ 53 ≤ |m * (2 : Rat) ^ i|) :
    k * (2 : Rat) ^ e * (n * 2 ^ j) = m * 2 ^ i := by
  rw [← sub_eq_zero]
  by_contra missed
  have product : k * (2 : Rat) ^ e * (n * 2 ^ j) = (k * n : Int) * 2 ^ (e + j) := by
    rw [zpow_add₀ (by norm_num)]
    push_cast
    ring
  have power : (0 : Rat) < 2 ^ i := zpow_pos (by norm_num) _
  have other : (0 : Rat) < 2 ^ (e + j) := zpow_pos (by norm_num) _
  have few : |(m : Rat)| < 2 ^ 24 := by exact_mod_cast few
  rw [product] at close missed
  -- The difference is a multiple of the smaller one of the two powers.
  rcases le_total i (e + j) with dividend | quotient
  · have shifted : (2 : Rat) ^ (e + j) = 2 ^ (e + j - i).toNat * 2 ^ i := by
      rw [← zpow_natCast, ← zpow_add₀ (by norm_num)]
      congr 1
      omega
    have multiple : (k * n : Int) * (2 : Rat) ^ (e + j) - m * 2 ^ i
        = (k * n * 2 ^ (e + j - i).toNat - m : Int) * 2 ^ i := by
      rw [shifted]
      push_cast
      ring
    have least := zpow_le_abs_of_multiple multiple missed
    rw [abs_mul (m : Rat), abs_of_pos power] at close
    nlinarith
  · have shifted : (2 : Rat) ^ i = 2 ^ (i - (e + j)).toNat * 2 ^ (e + j) := by
      rw [← zpow_natCast, ← zpow_add₀ (by norm_num)]
      congr 1
      omega
    have multiple : (k * n : Int) * (2 : Rat) ^ (e + j) - m * 2 ^ i
        = (k * n - m * 2 ^ (i - (e + j)).toNat : Int) * 2 ^ (e + j) := by
      rw [shifted]
      push_cast
      ring
    have least := zpow_le_abs_of_multiple multiple missed
    have size : |k * n| ≤ 2 ^ 25 * 2 ^ 24 := by
      rw [abs_mul]
      exact mul_le_mul digits.le some.le (abs_nonneg n) (by positivity)
    have size : |((k * n : Int) : Rat)| ≤ 2 ^ 25 * 2 ^ 24 := by exact_mod_cast size
    have total := abs_sub_abs_le_abs_sub (m * (2 : Rat) ^ i) ((k * n : Int) * 2 ^ (e + j))
    rw [abs_sub_comm, abs_mul ((k * n : Int) : Rat), abs_of_pos other] at total
    have bound := mul_le_mul_of_nonneg_right size other.le
    linarith

theorem not_misleads_div (first : single.Holds a) (second : single.Holds b) (divisor : b ≠ 0)
    (bounded : |b| ≤ single.largest) : ¬ double.Misleads single (a / b) := by
  by_cases zero : a = 0
  · rw [zero, zero_div]
    exact not_misleads_of_holds double.holds_zero
  rintro ⟨-, crosses⟩
  -- The midpoint times the divisor misses the dividend by a small part of it.
  have close : |double.nearest (a / b) * b - a| * 2 ^ 53 ≤ |a| := by
    have moved := abs_nearest_sub_mul_le double_precise
      (zpow_le_abs_div first zero divisor bounded)
    have difference : double.nearest (a / b) * b - a = (double.nearest (a / b) - a / b) * b := by
      rw [sub_mul, div_mul_cancel₀ _ divisor]
    have whole : |a| = |a / b| * |b| := by rw [← abs_mul, div_mul_cancel₀ _ divisor]
    rw [difference, abs_mul, whole, mul_right_comm]
    exact mul_le_mul_of_nonneg_right moved (abs_nonneg b)
  obtain ⟨m, dividend, few⟩ := first.exists_digits single_precise
  obtain ⟨n, multiple, some⟩ := second.exists_digits single_precise
  obtain ⟨k, middle, digits⟩ := crosses.1.exists_digits single_precise
  have reached : double.nearest (a / b) = a / b := by
    rw [eq_div_iff divisor, middle, multiple, dividend]
    rw [middle, multiple, dividend] at close
    exact product_eq_of_near few some digits close
  exact ((nearest_eq_self_iff double_precise).mp reached).not_crossesMidpoint crosses

end Calculator.Format
