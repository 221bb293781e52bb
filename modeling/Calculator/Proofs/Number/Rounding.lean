import Calculator.Number
import Calculator.Proofs.Number.Magnitude
import Mathlib.Tactic.NormNum
import Mathlib.Tactic.Positivity
import Mathlib.Tactic.Ring

/-!
# Rounding to a format

The numbers of a format, its upper bound left aside, are the multiples of powers of two with few
enough digits and an exponent that is not too small. Rounding always reaches one of them and
keeps those that it reaches, so that a datum rounded once stays as it is.

## Main results

- `Format.nearest_eq_self_iff`: rounding keeps exactly the numbers of the format.
- `Format.round_round`: a second rounding changes nothing.
- `Format.nearest_eq_of_near`: a rational that is closer than half the last digit kept of it to a
  number of the format is rounded to that number.
-/

namespace Calculator

/-! ### Nearest integers -/

theorem roundHalfEven_eq_of_near {q : Rat} {n : Int} (near : |q - n| < 1 / 2) :
    roundHalfEven q = n := by
  have moved := abs_roundHalfEven_sub_le q
  rw [abs_lt] at near
  rw [abs_le] at moved
  have below : (roundHalfEven q : Rat) < n + 1 := by linarith
  have above : (n : Rat) < roundHalfEven q + 1 := by linarith
  have below : roundHalfEven q < n + 1 := by exact_mod_cast below
  have above : n < roundHalfEven q + 1 := by exact_mod_cast above
  omega

theorem roundHalfEven_nonneg {q : Rat} (nonneg : 0 ≤ q) : 0 ≤ roundHalfEven q := by
  have floor : 0 ≤ q.floor := Rat.le_floor_iff.mpr (by simpa using nonneg)
  simp only [roundHalfEven]
  split_ifs <;> omega

/-- Rounding does not carry a magnitude past an integer above it. -/
theorem abs_roundHalfEven_le {q : Rat} {n : Int} (below : |q| < n) : |roundHalfEven q| ≤ n := by
  have moved := abs_sub_abs_le_abs_sub (roundHalfEven q : Rat) q
  have half := abs_roundHalfEven_sub_le q
  have strict : |(roundHalfEven q : Rat)| < n + 1 := by linarith
  have strict : |roundHalfEven q| < n + 1 := by exact_mod_cast strict
  omega

/-- A magnitude is not rounded below an integer that it reaches. -/
theorem le_abs_roundHalfEven_of_le {q : Rat} {m : Int} (reaches : (m : Rat) ≤ |q|) :
    m ≤ |roundHalfEven q| := by
  have moved := abs_sub_abs_le_abs_sub q (roundHalfEven q : Rat)
  have half := abs_roundHalfEven_sub_le q
  rw [abs_sub_comm] at half
  have above : (m : Rat) < |(roundHalfEven q : Rat)| + 1 := by linarith
  have above : m < |roundHalfEven q| + 1 := by exact_mod_cast above
  omega

namespace Format

variable {format : Format} {q r : Rat}

theorem unit_pos (format : Format) (q : Rat) : (0 : Rat) < 2 ^ format.lastExponent q :=
  zpow_pos (by norm_num) _

theorem nearest_zero (format : Format) : format.nearest 0 = 0 := by
  have fixed : roundHalfEven 0 = 0 := roundHalfEven_intCast 0
  simp [nearest, fixed]

theorem nearest_nonneg (nonneg : 0 ≤ q) : 0 ≤ format.nearest q := by
  have scaled : 0 ≤ q / 2 ^ format.lastExponent q := div_nonneg nonneg (format.unit_pos q).le
  have rounded : (0 : Rat) ≤ roundHalfEven (q / 2 ^ format.lastExponent q) := by
    exact_mod_cast roundHalfEven_nonneg scaled
  exact mul_nonneg rounded (format.unit_pos q).le

/-! ### Last digits -/

theorem leastExponent_le (format : Format) (q : Rat) :
    format.leastExponent ≤ format.lastExponent q :=
  le_max_left _ _

/-- A magnitude has no more digits above its last one than the precision allows. -/
theorem abs_lt_zpow (positive : 0 < format.precision) (q : Rat) :
    |q| < (2 : Rat) ^ (format.lastExponent q + format.precision) := by
  by_cases zero : q = 0
  · rw [zero, abs_zero]
    exact zpow_pos (by norm_num) _
  · have below : |q| < (2 : Rat) ^ (Int.log 2 |q| + 1) := by
      exact_mod_cast Int.lt_zpow_succ_log_self (by norm_num : 1 < 2) |q|
    have digits : Int.log 2 |q| - (format.precision - 1 : Nat) ≤ format.lastExponent q := by
      rw [← order_eq_log (le_refl 2) zero]
      exact le_max_right _ _
    -- The precision counts the leading digit, and the difference of the exponents does not.
    have exponent : Int.log 2 |q| + 1 ≤ format.lastExponent q + format.precision := by omega
    exact below.trans_le (zpow_le_zpow_right₀ (by norm_num) exponent)

/-- In units of its last digit a magnitude is below the power of two with all digits. -/
theorem abs_lt_units (positive : 0 < format.precision) (q : Rat) :
    |q| < 2 ^ format.precision * (2 : Rat) ^ format.lastExponent q := by
  have below := abs_lt_zpow positive q
  rw [zpow_add₀ (by norm_num), zpow_natCast, mul_comm] at below
  exact below

theorem lastExponent_le {e : Int} (nonzero : q ≠ 0) (least : format.leastExponent ≤ e)
    (below : |q| < (2 : Rat) ^ (e + format.precision)) : format.lastExponent q ≤ e := by
  have log : Int.log 2 |q| < e + format.precision := by
    apply (Int.lt_zpow_iff_log_lt (by norm_num : 1 < 2) (abs_pos.mpr nonzero)).mp
    exact_mod_cast below
  rw [lastExponent, order_eq_log (le_refl 2) nonzero]
  omega

/-! ### Numbers of a format -/

/-- A number of the format without its upper bound: few enough digits, and an exponent that is
not too small. -/
def Holds (format : Format) (q : Rat) : Prop :=
  ∃ digits exponent : Int, q = digits * (2 : Rat) ^ exponent ∧
    |digits| < 2 ^ format.precision ∧ format.leastExponent ≤ exponent

theorem Holds.neg (holds : format.Holds q) : format.Holds (-q) := by
  obtain ⟨digits, exponent, rfl, small, least⟩ := holds
  refine ⟨-digits, exponent, ?_, ?_, least⟩
  · rw [Int.cast_neg, neg_mul]
  · rw [abs_neg]
    exact small

theorem Holds.abs (holds : format.Holds q) : format.Holds |q| := by
  rcases abs_choice q with equal | equal <;> rw [equal]
  · exact holds
  · exact holds.neg

/-- A format with more digits and smaller exponents holds the same numbers. -/
theorem Holds.mono {wider : Format} (holds : format.Holds q)
    (digits : format.precision ≤ wider.precision)
    (least : wider.leastExponent ≤ format.leastExponent) : wider.Holds q := by
  obtain ⟨m, e, rfl, small, bound⟩ := holds
  refine ⟨m, e, rfl, ?_, by omega⟩
  calc |m| < 2 ^ format.precision := small
    _ ≤ 2 ^ wider.precision := pow_le_pow_right₀ (by norm_num) digits

/-- A number of the format is a multiple of the last digit that the format keeps of a rational
that is not larger. -/
theorem Holds.exists_multiple {e : Int} (holds : format.Holds q)
    (le : e ≤ format.lastExponent q) : ∃ n : Int, q = n * (2 : Rat) ^ e := by
  obtain ⟨m, exponent, rfl, small, least⟩ := holds
  by_cases zero : m = 0
  · exact ⟨0, by simp [zero]⟩
  · have positive : (0 : Rat) < 2 ^ exponent := zpow_pos (by norm_num) _
    have nonzero : (m : Rat) * 2 ^ exponent ≠ 0 :=
      mul_ne_zero (by exact_mod_cast zero) positive.ne'
    have below : |(m : Rat) * 2 ^ exponent| < 2 ^ (exponent + format.precision) := by
      rw [abs_mul, abs_of_pos positive, zpow_add₀ (by norm_num), mul_comm, zpow_natCast]
      exact mul_lt_mul_of_pos_left (by exact_mod_cast small) positive
    -- The digits are few enough for the last one to be kept, so that shifting them is exact.
    have above := le.trans (lastExponent_le nonzero least below)
    refine ⟨m * 2 ^ (exponent - e).toNat, ?_⟩
    have split : exponent = (exponent - e).toNat + e := by omega
    rw [Int.cast_mul, Int.cast_pow, Int.cast_ofNat, mul_assoc, ← zpow_natCast,
      ← zpow_add₀ (by norm_num), ← split]

/-- A rational that is closer to a number of the format than half the last digit that is kept of
it is rounded to that number. -/
theorem nearest_eq_of_near (holds : format.Holds q)
    (le : format.lastExponent r ≤ format.lastExponent q)
    (near : |r - q| < 2 ^ format.lastExponent r / 2) : format.nearest r = q := by
  obtain ⟨n, multiple⟩ := holds.exists_multiple le
  have positive := format.unit_pos r
  simp only [nearest]
  generalize (2 : Rat) ^ format.lastExponent r = unit at *
  have scaled : |r / unit - n| < 1 / 2 := by
    have difference : r / unit - n = (r - q) / unit := by
      rw [multiple, sub_div, mul_div_cancel_right₀ _ positive.ne']
    rw [difference, abs_div, abs_of_pos positive, div_lt_iff₀ positive]
    linarith
  rw [roundHalfEven_eq_of_near scaled, multiple]

theorem nearest_of_holds (holds : format.Holds q) : format.nearest q = q := by
  apply nearest_eq_of_near holds (le_refl _)
  rw [sub_self, abs_zero]
  exact half_pos (format.unit_pos q)

theorem holds_nearest (positive : 0 < format.precision) (q : Rat) :
    format.Holds (format.nearest q) := by
  have unit := format.unit_pos q
  have scaled : |q / 2 ^ format.lastExponent q| < (2 ^ format.precision : Int) := by
    rw [abs_div, abs_of_pos unit, div_lt_iff₀ unit]
    exact_mod_cast abs_lt_units positive q
  have least := format.leastExponent_le q
  rcases (abs_roundHalfEven_le scaled).lt_or_eq with small | carry
  · exact ⟨_, _, rfl, small, least⟩
  · -- The carry into one more digit leaves a power of two, which has one digit only.
    obtain ⟨k, precision⟩ : ∃ k, format.precision = k + 1 := ⟨format.precision - 1, by omega⟩
    obtain ⟨m, rounded⟩ : (2 : Int) ∣ roundHalfEven (q / 2 ^ format.lastExponent q) := by
      apply (dvd_abs _ _).mp
      rw [carry, precision, pow_succ]
      exact Int.dvd_mul_left _ _
    refine ⟨m, format.lastExponent q + 1, ?_, ?_, by omega⟩
    · simp only [nearest, rounded]
      rw [Int.cast_mul, Int.cast_ofNat, zpow_add₀ (by norm_num), zpow_one]
      ring
    · rw [rounded, precision, pow_succ, abs_mul] at carry
      rw [precision, pow_succ]
      have base : (0 : Int) < 2 ^ k := by positivity
      have factor : |(2 : Int)| = 2 := rfl
      rw [factor] at carry
      omega

/-- Rounding keeps exactly the numbers of the format. -/
theorem nearest_eq_self_iff (positive : 0 < format.precision) :
    format.nearest q = q ↔ format.Holds q := by
  constructor
  · intro fixed
    rw [← fixed]
    exact holds_nearest positive q
  · exact nearest_of_holds

/-! ### Data -/

theorem largest_nonneg (format : Format) : 0 ≤ format.largest :=
  mul_nonneg (sub_nonneg.mpr (one_le_pow₀ (by norm_num))) (zpow_nonneg (by norm_num) _)

theorem ofRat_zero (format : Format) : format.ofRat 0 = .number 0 := by
  simp [ofRat, nearest_zero, rat_abs_eq_abs, format.largest_nonneg, Binary.zero]

theorem ofRat_eq_number_iff (nonzero : r ≠ 0) :
    format.ofRat q = .number r ↔ format.nearest q = r ∧ |r| ≤ format.largest := by
  simp only [ofRat, rat_abs_eq_abs, Binary.zero]
  constructor
  · intro equal
    split_ifs at equal with beyond vanishes negative
    · cases equal
      exact absurd rfl nonzero
    · cases equal
      exact ⟨rfl, not_lt.mp beyond⟩
  · rintro ⟨rfl, bounded⟩
    rw [if_neg (not_lt.mpr bounded), if_neg nonzero]

/-- A second rounding changes nothing. -/
theorem round_round (positive : 0 < format.precision) (x : Binary) :
    format.round (format.round x) = format.round x := by
  cases x with
  | negativeZero | infinity | nan => rfl
  | number q =>
    simp only [round]
    cases result : format.ofRat q with
    | negativeZero | infinity | nan => rfl
    | number r =>
      simp only
      by_cases zero : r = 0
      · -- A number that is zero is the positive zero, which no rounding signs.
        rw [zero, ofRat_zero]
      · obtain ⟨reached, bounded⟩ := (ofRat_eq_number_iff zero).mp result
        have holds : format.Holds r := reached ▸ holds_nearest positive q
        exact (ofRat_eq_number_iff zero).mpr ⟨nearest_of_holds holds, bounded⟩

end Format

end Calculator
