import Calculator.Number.Binary.Text
import Calculator.Proofs.Number.Rounding

/-!
# Decimals that read back

A decimal with enough digits is so close to a number of a format that rounding it to the format
gives that number again. The search for a short decimal ends at the latest there, so that what it
finds reads back.

## Main results

- `Format.ofRat_shortestDouble`: the decimal of a double-format number reads back as it.
- `Binary.exists_double_of_singleMagnitude`: a single-format number is written as a double-format
  number that is rounded to it.
- `Format.ofDecimal_eq_ofRat`: a decimal is rounded to the format whatever its exponent.
-/

namespace Calculator

/-! ### Relative distances -/

namespace Format

variable {format : Format} {q r : Rat}

/-- What is near to a number of the format stays below the power of two above that number. -/
private theorem Holds.lt_of_near (holds : format.Holds q) (positive : 0 < q)
    (precise : 0 < format.precision) (near : |r - q| * 2 ^ (format.precision + 1) < q) :
    r < 2 ^ (format.lastExponent q + format.precision) := by
  obtain ⟨n, multiple⟩ := holds.exists_multiple (le_refl _)
  have unit := format.unit_pos q
  have below := abs_lt_zpow precise q
  rw [abs_of_pos positive] at below
  rw [zpow_add₀ (by norm_num), zpow_natCast] at below ⊢
  rw [pow_succ] at near
  have upper : r - q ≤ |r - q| := le_abs_self _
  have power : (0 : Rat) < 2 ^ format.precision := by positivity
  generalize (2 : Rat) ^ format.lastExponent q = u at *
  -- The number is a multiple of the unit below the power, hence at least a unit below it.
  have digits : n + 1 ≤ (2 : Int) ^ format.precision := by
    rw [multiple, mul_comm] at below
    have digits := lt_of_mul_lt_mul_left below unit.le
    exact_mod_cast digits
  have digits : (n : Rat) + 1 ≤ 2 ^ format.precision := by exact_mod_cast digits
  have half : (r - q) * 2 < u := by
    refine lt_of_mul_lt_mul_left ?_ power.le
    calc 2 ^ format.precision * ((r - q) * 2)
        ≤ |r - q| * (2 ^ format.precision * 2) := by nlinarith
      _ < q := near
      _ ≤ 2 ^ format.precision * u := by linarith
  nlinarith

/-- What is near to a number of the format is not below a power of two much smaller than it. -/
private theorem Holds.le_of_near (holds : format.Holds q) (positive : 0 < q) (other : 0 < r)
    (precise : 0 < format.precision) (near : |r - q| * 2 ^ (format.precision + 1) < q) :
    q ≤ 2 ^ (format.lastExponent r + format.precision) := by
  by_contra beyond
  rw [not_le] at beyond
  have larger : format.lastExponent r + 1 ≤ format.lastExponent q := by
    by_contra small
    have below := abs_lt_zpow precise q
    rw [abs_of_pos positive] at below
    have le : (2 : Rat) ^ (format.lastExponent q + format.precision)
        ≤ 2 ^ (format.lastExponent r + format.precision) :=
      zpow_le_zpow_right₀ (by norm_num) (by omega)
    linarith
  obtain ⟨n, multiple⟩ := holds.exists_multiple larger
  have below := abs_lt_zpow precise r
  rw [abs_of_pos other] at below
  obtain ⟨k, precision⟩ : ∃ k, format.precision = k + 1 := ⟨format.precision - 1, by omega⟩
  have split : (2 : Rat) ^ (format.lastExponent r + format.precision)
      = 2 ^ k * 2 ^ (format.lastExponent r + 1) := by
    rw [← zpow_natCast, ← zpow_add₀ (by norm_num), precision]
    congr 1
    push_cast
    ring
  have unit : (0 : Rat) < 2 ^ (format.lastExponent r + 1) := zpow_pos (by norm_num) _
  rw [split] at beyond below
  have distance : q - r ≤ |r - q| := by
    rw [abs_sub_comm]
    exact le_abs_self _
  rw [precision, pow_succ, pow_succ] at near
  generalize (2 : Rat) ^ (format.lastExponent r + 1) = w at *
  -- Both are multiples of the same unit, so that the number is at least a unit above the power.
  have above : (2 : Int) ^ k + 1 ≤ n := by
    rw [multiple] at beyond
    have above := lt_of_mul_lt_mul_right beyond unit.le
    exact_mod_cast above
  have above : (2 : Rat) ^ k + 1 ≤ n := by exact_mod_cast above
  have one : (1 : Rat) ≤ 2 ^ k := one_le_pow₀ (by norm_num)
  generalize (2 : Rat) ^ k = a at *
  have gap : (n - a) * w < q - r := by
    rw [multiple, sub_mul]
    linarith
  have bound : (n - a) * w * (a * 2 * 2) < n * w := by
    calc (n - a) * w * (a * 2 * 2) ≤ |r - q| * (a * 2 * 2) := by nlinarith
      _ < n * w := by rwa [← multiple]
  have bound : (n - a) * (a * 2 * 2) < n := by
    refine lt_of_mul_lt_mul_right ?_ unit.le
    linarith
  nlinarith

/-- A rational whose distance from a number of the format is small against that number is rounded
to it. -/
theorem nearest_eq_of_relative (holds : format.Holds q) (positive : 0 < q)
    (precise : 0 < format.precision) (near : |r - q| * 2 ^ (format.precision + 1) < q) :
    format.nearest r = q := by
  have other : 0 < r := by
    have power : (1 : Rat) ≤ 2 ^ (format.precision + 1) := one_le_pow₀ (by norm_num)
    have distance : q - r ≤ |r - q| := by
      rw [abs_sub_comm]
      exact le_abs_self _
    nlinarith [abs_nonneg (r - q)]
  refine nearest_eq_of_near holds ?_ ?_
  · refine lastExponent_le other.ne' (format.leastExponent_le q) ?_
    rw [abs_of_pos other]
    exact holds.lt_of_near positive precise near
  · have le := holds.le_of_near positive other precise near
    rw [zpow_add₀ (by norm_num), zpow_natCast] at le
    rw [pow_succ] at near
    have power : (0 : Rat) < 2 ^ format.precision := by positivity
    rw [lt_div_iff₀ (by norm_num)]
    refine lt_of_mul_lt_mul_right ?_ power.le
    linarith

end Format

/-! ### The search for a short decimal -/

namespace Decimal

theorem toRat_nonneg (d : Decimal) : 0 ≤ d.toRat :=
  mul_nonneg (Nat.cast_nonneg _) (zpow_nonneg (by norm_num) _)

theorem leading_le {q : Rat} (positive : 0 < q) : (10 : Rat) ^ order 10 q ≤ q := by
  rw [order_eq_log (by norm_num) positive.ne', abs_of_pos positive]
  exact_mod_cast Int.zpow_log_le_self (by norm_num : 1 < 10) positive

theorem abs_nearest_sub_le {q : Rat} (positive : 0 < q) (digits : Nat) :
    |(nearest digits q).toRat - q| ≤ (10 : Rat) ^ lastExponent digits q / 2 := by
  have unit : (0 : Rat) < 10 ^ lastExponent digits q := zpow_pos (by norm_num) _
  have scaled : 0 ≤ q / 10 ^ lastExponent digits q := div_nonneg positive.le unit.le
  have moved := abs_roundHalfEven_sub_le (q / 10 ^ lastExponent digits q)
  have coefficient : ((roundHalfEven (q / 10 ^ lastExponent digits q)).toNat : Rat)
      = roundHalfEven (q / 10 ^ lastExponent digits q) := by
    exact_mod_cast Int.toNat_of_nonneg (roundHalfEven_nonneg scaled)
  simp only [nearest, toRat]
  rw [coefficient]
  generalize (10 : Rat) ^ lastExponent digits q = u at *
  have difference :
      (roundHalfEven (q / u) : Rat) * u - q = (roundHalfEven (q / u) - q / u) * u := by
    rw [sub_mul, div_mul_cancel₀ _ unit.ne']
  rw [difference, abs_mul, abs_of_pos unit]
  linarith [mul_le_mul_of_nonneg_right moved unit.le]

/-- What the search finds reads back if the decimal of its last attempt does. -/
theorem readsBack_shortestFrom (readsBack : Rat → Bool) {q : Rat} {digits attempts : Nat}
    (last : readsBack (nearest (digits + attempts) q).toRat = true) :
    readsBack (shortestFrom readsBack q digits attempts).toRat = true := by
  induction attempts generalizing digits with
  | zero => exact last
  | succ attempts ih =>
    simp only [shortestFrom]
    split
    · next found => exact List.find?_some (p := fun d : Decimal => readsBack d.toRat) found
    · apply ih
      rw [Nat.add_assoc, Nat.add_comm 1]
      exact last

end Decimal

namespace Format

variable {format : Format} {q : Rat}

/-- With so many digits that the powers of ten outgrow the digits of the format, the nearest
decimal is rounded back. -/
theorem nearest_nearest_decimal {digits : Nat} (holds : format.Holds q) (positive : 0 < q)
    (precise : 0 < format.precision) (many : 2 ^ format.precision < 10 ^ (digits - 1)) :
    format.nearest (Decimal.nearest digits q).toRat = q := by
  apply nearest_eq_of_relative holds positive precise
  have moved := Decimal.abs_nearest_sub_le positive digits
  have leading := Decimal.leading_le positive
  have many : (2 : Rat) ^ format.precision < 10 ^ (digits - 1) := by exact_mod_cast many
  have unit : (0 : Rat) < 10 ^ order 10 q := zpow_pos (by norm_num) _
  have tens : (0 : Rat) < 10 ^ (digits - 1) := by positivity
  rw [Decimal.lastExponent, zpow_sub₀ (by norm_num), zpow_natCast] at moved
  rw [pow_succ]
  -- Half a unit of the last decimal digit, against the leading power of ten.
  calc |(Decimal.nearest digits q).toRat - q| * (2 ^ format.precision * 2)
      ≤ 10 ^ order 10 q / 10 ^ (digits - 1) / 2 * (2 ^ format.precision * 2) :=
        mul_le_mul_of_nonneg_right moved (by positivity)
    _ = 10 ^ order 10 q * (2 ^ format.precision / 10 ^ (digits - 1)) := by ring
    _ < 10 ^ order 10 q * 1 :=
        mul_lt_mul_of_pos_left ((div_lt_one tens).mpr many) unit
    _ ≤ q := by linarith

theorem ofRat_self_iff (precise : 0 < format.precision) (nonzero : q ≠ 0) :
    format.ofRat q = .number q ↔ format.Holds q ∧ |q| ≤ format.largest := by
  rw [ofRat_eq_number_iff nonzero, nearest_eq_self_iff precise]

theorem ofRat_abs (precise : 0 < format.precision) (nonzero : q ≠ 0)
    (number : format.ofRat q = .number q) : format.ofRat |q| = .number |q| := by
  obtain ⟨holds, bounded⟩ := (ofRat_self_iff precise nonzero).mp number
  apply (ofRat_self_iff precise (abs_ne_zero.mpr nonzero)).mpr
  rw [abs_abs]
  exact ⟨holds.abs, bounded⟩

/-- The decimal of a double-format number reads back as it. -/
theorem ofRat_shortestDouble (positive : 0 < q) (number : double.ofRat q = .number q) :
    double.ofRat (shortestDouble q).toRat = .number q := by
  obtain ⟨holds, bounded⟩ := (ofRat_self_iff (by decide) positive.ne').mp number
  have last : double.ofRat (Decimal.nearest (1 + (doubleDigits - 1)) q).toRat = .number q :=
    (ofRat_eq_number_iff positive.ne').mpr
      ⟨nearest_nearest_decimal holds positive (by decide) (by decide), bounded⟩
  have found := Decimal.readsBack_shortestFrom
    (fun r => decide (double.ofRat r = .number q)) (decide_eq_true last)
  rw [shortestDouble, if_neg positive.ne']
  exact of_decide_eq_true found

theorem ofRat_double_of_single (nonzero : q ≠ 0) (number : single.ofRat q = .number q) :
    double.ofRat q = .number q := by
  obtain ⟨holds, bounded⟩ := (ofRat_self_iff (by decide) nonzero).mp number
  have wider : single.largest ≤ double.largest := by decide +kernel
  exact (ofRat_self_iff (by decide) nonzero).mpr
    ⟨holds.mono (by decide) (by decide), bounded.trans wider⟩

end Format

open Format

/-- A single-format number is written as a double-format number that is rounded to it: that of
the digits found, or itself. -/
theorem Binary.exists_double_of_singleMagnitude {q : Rat} (positive : 0 < q)
    (number : single.ofRat q = .number q) :
    ∃ r, 0 < r ∧ double.ofRat r = .number r ∧ single.ofRat r = .number q ∧
      singleMagnitude q = doubleMagnitude r := by
  have own : ∃ r, 0 < r ∧ double.ofRat r = .number r ∧ single.ofRat r = .number q ∧
      doubleMagnitude q = doubleMagnitude r :=
    ⟨q, positive, ofRat_double_of_single positive.ne' number, number, rfl⟩
  rw [singleMagnitude, if_neg positive.ne']
  cases found : singleDecimal? q with
  | none => exact own
  | some d =>
    have reads : readSingle d = .number q := by
      have reads := List.find?_some found
      exact of_decide_eq_true reads
    rw [Option.map_some]
    rw [readSingle] at reads
    cases widened : double.ofRat d.toRat with
    | negativeZero | infinity | nan => exact own
    | number r =>
      -- The double-format number is positive, because it rounds to a positive number.
      rw [widened] at reads
      have nonzero : r ≠ 0 := by
        rintro rfl
        rw [Format.round, ofRat_zero] at reads
        cases reads
        exact absurd positive (lt_irrefl 0)
      obtain ⟨reached, _⟩ := (ofRat_eq_number_iff nonzero).mp widened
      have nonneg : 0 ≤ r := by
        rw [← reached]
        exact nearest_nonneg d.toRat_nonneg
      have again := round_round (by decide : 0 < double.precision) (.number d.toRat)
      simp only [Format.round, widened] at again
      exact ⟨r, lt_of_le_of_ne nonneg nonzero.symm, again, reads, rfl⟩

/-! ### Decimals far out of range -/

namespace Decimal

variable {d : Decimal}

theorem toRat_pos (nonzero : d.coefficient ≠ 0) : 0 < d.toRat :=
  mul_pos (by exact_mod_cast Nat.pos_of_ne_zero nonzero) (zpow_pos (by norm_num) _)

private theorem size_le_toRat (nonzero : d.coefficient ≠ 0) (whole : 0 ≤ d.exponent) :
    (2 : Rat) ^ (floorLog 2 d.coefficient + 3 * d.exponent) ≤ d.toRat := by
  rw [zpow_add₀ (by norm_num), zpow_natCast, zpow_mul, floorLog_eq_log (le_refl 2)]
  have coefficient : (2 : Rat) ^ Nat.log 2 d.coefficient ≤ d.coefficient := by
    exact_mod_cast Nat.pow_log_le_self 2 nonzero
  have power : ((2 : Rat) ^ (3 : Int)) ^ d.exponent ≤ 10 ^ d.exponent :=
    zpow_le_zpow_left₀ whole (by norm_num) (by norm_num)
  exact mul_le_mul coefficient power (zpow_nonneg (by norm_num) _) (Nat.cast_nonneg _)

private theorem toRat_lt_size (fractional : d.exponent < 0) :
    d.toRat < (2 : Rat) ^ (floorLog 2 d.coefficient + 3 * d.exponent + 1) := by
  rw [add_right_comm, zpow_add₀ (by norm_num), zpow_mul, floorLog_eq_log (le_refl 2)]
  have coefficient : (d.coefficient : Rat) < 2 ^ (Nat.log 2 d.coefficient + 1 : Int) := by
    exact_mod_cast Nat.lt_pow_succ_log_self (by norm_num : 1 < 2) d.coefficient
  have power : (10 : Rat) ^ d.exponent ≤ ((2 : Rat) ^ (3 : Int)) ^ d.exponent := by
    obtain ⟨n, exponent⟩ : ∃ n : Nat, d.exponent = -n := ⟨d.exponent.natAbs, by omega⟩
    rw [exponent, zpow_neg, zpow_neg]
    exact inv_anti₀ (zpow_pos (by norm_num) _)
      (zpow_le_zpow_left₀ (by omega) (by norm_num) (by norm_num))
  exact mul_lt_mul coefficient power (zpow_pos (by norm_num) _) (zpow_nonneg (by norm_num) _)

end Decimal

namespace Format

variable {format : Format} {d : Decimal} {q : Rat}

/-- A magnitude below half the smallest number of the format vanishes. -/
private theorem ofRat_of_tiny (tiny : |q| < 2 ^ (format.leastExponent - 1)) :
    format.ofRat q = .zero (q < 0) := by
  have vanishes : format.nearest q = 0 := by
    by_cases zero : q = 0
    · rw [zero, nearest_zero]
    · have last : format.lastExponent q = format.leastExponent := by
        refine le_antisymm (lastExponent_le zero (le_refl _) ?_) (format.leastExponent_le q)
        exact tiny.trans_le (zpow_le_zpow_right₀ (by norm_num) (by omega))
      have unit := format.unit_pos q
      have scaled : |q / 2 ^ format.lastExponent q - (0 : Int)| < 1 / 2 := by
        rw [Int.cast_zero, sub_zero, abs_div, abs_of_pos unit, div_lt_iff₀ unit, last]
        rw [zpow_sub₀ (by norm_num), zpow_one] at tiny
        linarith
      simp only [nearest, roundHalfEven_eq_of_near scaled, Int.cast_zero, zero_mul]
  simp only [ofRat, vanishes, rat_abs_eq_abs, abs_zero, if_neg (not_lt.mpr format.largest_nonneg),
    if_true]

theorem largest_lt_overflow (format : Format) :
    format.largest < 2 ^ format.overflowExponent := by
  have power : (0 : Rat) < 2 ^ format.greatestExponent := zpow_pos (by norm_num) _
  rw [largest, overflowExponent, zpow_add₀ (by norm_num), zpow_natCast, mul_comm]
  linarith

/-- A magnitude of a power of two above the largest number of the format exceeds it. -/
theorem ofRat_of_huge (precise : 0 < format.precision)
    (ordered : format.leastExponent ≤ format.greatestExponent)
    (huge : 2 ^ format.overflowExponent ≤ |q|) : format.ofRat q = .infinity (q < 0) := by
  have nonzero : q ≠ 0 := by
    rintro rfl
    rw [abs_zero] at huge
    exact absurd huge (not_le.mpr (zpow_pos (by norm_num) _))
  have magnitude : 0 < |q| := abs_pos.mpr nonzero
  have above : format.overflowExponent ≤ order 2 q := by
    rw [order_eq_log (le_refl 2) nonzero]
    exact (Int.zpow_le_iff_le_log (by norm_num) magnitude).mp (by exact_mod_cast huge)
  have leading : (2 : Rat) ^ order 2 q ≤ |q| := by
    rw [order_eq_log (le_refl 2) nonzero]
    exact_mod_cast Int.zpow_log_le_self (by norm_num : 1 < 2) magnitude
  have last : format.lastExponent q = order 2 q - (format.precision - 1 : Nat) := by
    rw [overflowExponent] at above
    exact max_eq_right (by omega)
  have unit := format.unit_pos q
  have split : (2 : Rat) ^ order 2 q
      = (2 ^ (format.precision - 1) : Int) * 2 ^ format.lastExponent q := by
    rw [last, Int.cast_pow, Int.cast_ofNat, ← zpow_natCast, ← zpow_add₀ (by norm_num)]
    congr 1
    omega
  -- Rounding does not fall below the leading power, which is a whole number of units.
  have scaled : ((2 ^ (format.precision - 1) : Int) : Rat) ≤ |q / 2 ^ format.lastExponent q| := by
    rw [abs_div, abs_of_pos unit, le_div_iff₀ unit, ← split]
    exact leading
  have rounded : (2 : Rat) ^ order 2 q ≤ |format.nearest q| := by
    rw [split, nearest, abs_mul, abs_of_pos unit]
    refine mul_le_mul_of_nonneg_right ?_ unit.le
    exact_mod_cast le_abs_roundHalfEven_of_le scaled
  have beyond : format.largest < |format.nearest q| :=
    calc format.largest < 2 ^ format.overflowExponent := format.largest_lt_overflow
      _ ≤ 2 ^ order 2 q := zpow_le_zpow_right₀ (by norm_num) above
      _ ≤ |format.nearest q| := rounded
  simp only [ofRat, rat_abs_eq_abs, if_pos beyond]

/-- A decimal other than zero is rounded as the rational that it is. -/
theorem ofDecimal_eq_ofRat (precise : 0 < format.precision)
    (ordered : format.leastExponent ≤ format.greatestExponent) (nonzero : d.coefficient ≠ 0)
    (negative : Bool) :
    format.ofDecimal negative d = format.ofRat (if negative then -d.toRat else d.toRat) := by
  have positive := Decimal.toRat_pos nonzero
  have magnitude : |if negative then -d.toRat else d.toRat| = d.toRat := by
    cases negative
    · exact abs_of_pos positive
    · exact (abs_neg _).trans (abs_of_pos positive)
  have sign : decide ((if negative then -d.toRat else d.toRat) < 0) = negative := by
    cases negative
    · exact decide_eq_false (not_lt.mpr positive.le)
    · exact decide_eq_true (neg_neg_of_pos positive)
  simp only [ofDecimal, if_neg nonzero]
  generalize (if negative then -d.toRat else d.toRat) = q at *
  split_ifs with huge tiny
  · rw [ofRat_of_huge precise ordered, sign]
    rw [magnitude]
    exact (zpow_le_zpow_right₀ (by norm_num) huge.2).trans (Decimal.size_le_toRat nonzero huge.1)
  · rw [ofRat_of_tiny, sign]
    rw [magnitude]
    exact (Decimal.toRat_lt_size tiny.1).trans_le (zpow_le_zpow_right₀ (by norm_num) (by omega))
  · rfl

/-- A decimal without a sign is rounded as the rational that it is, zero included. -/
theorem ofDecimal_unsigned (precise : 0 < format.precision)
    (ordered : format.leastExponent ≤ format.greatestExponent) (d : Decimal) :
    format.ofDecimal false d = format.ofRat d.toRat := by
  by_cases zero : d.coefficient = 0
  · simp [ofDecimal, zero, Decimal.toRat, ofRat_zero, Binary.zero]
  · exact ofDecimal_eq_ofRat precise ordered zero false

end Format

end Calculator
