import Calculator.Proofs.Number.Rounding

/-!
# Nearest numbers of a format

Rounding takes a number of the format that no other one is nearer than. It therefore keeps the
order of the rationals, and it is symmetric about zero; between two powers of two it is rounding
to the multiples of one unit.

## Main results

- `Format.abs_nearest_sub_le_of_holds`: no number of the format is nearer than the rounded one.
- `Format.nearest_mono`: rounding keeps the order.
- `Format.nearest_eq_of_between`: the unit of the last digit between two powers of two.
- `Format.ofRat_neg`: a changed sign passes through the rounding.
-/

namespace Calculator

/-! ### Nearest integers -/

/-- Rounding to an integer moves by less than one half, or by one half to an even integer. -/
theorem roundHalfEven_near_or_even (q : Rat) :
    |q - roundHalfEven q| < 1 / 2 ∨ |q - roundHalfEven q| = 1 / 2 ∧ roundHalfEven q % 2 = 0 := by
  have below : (q.floor : Rat) ≤ q := Int.floor_le q
  have above : q < q.floor + 1 := Int.lt_floor_add_one q
  simp only [roundHalfEven]
  split_ifs with near beyond even
  · left
    rw [abs_of_nonneg (by linarith)]
    exact near
  · left
    push_cast
    rw [abs_of_neg (by linarith)]
    linarith
  · right
    rw [abs_of_nonneg (by linarith)]
    exact ⟨by linarith, even⟩
  · right
    push_cast
    rw [abs_of_neg (by linarith)]
    exact ⟨by linarith, by omega⟩

private theorem roundHalfEven_eq_of_tie {q : Rat} {n : Int} (tie : |q - n| = 1 / 2)
    (even : n % 2 = 0) :
    roundHalfEven q = n := by
  have moved := roundHalfEven_near_or_even q
  generalize roundHalfEven q = m at *
  -- Both integers are within one half of the rational, so that they are equal or neighbours.
  have close : |(m : Rat) - n| ≤ 1 := by
    have total := abs_sub_le (m : Rat) q n
    rw [abs_sub_comm (m : Rat) q] at total
    rcases moved with near | ⟨half, -⟩ <;> linarith
  have close : |m - n| ≤ 1 := by exact_mod_cast close
  rcases moved with near | ⟨-, other⟩
  · -- A strictly nearer neighbour would leave less than a whole step to the other one.
    by_contra different
    have apart : 1 ≤ |m - n| := Int.one_le_abs (sub_ne_zero.mpr different)
    have apart : (1 : Rat) ≤ |(m : Rat) - n| := by exact_mod_cast apart
    have total := abs_sub_le (m : Rat) q n
    rw [abs_sub_comm (m : Rat) q] at total
    linarith
  · rw [abs_le] at close
    omega

/-- Reflection at an integer. -/
theorem roundHalfEven_reflect (n : Int) (q : Rat) :
    roundHalfEven (2 * n - q) = 2 * n - roundHalfEven q := by
  have distance : (2 * n - q) - (2 * n - roundHalfEven q : Int) = -(q - roundHalfEven q) := by
    push_cast
    ring
  rcases roundHalfEven_near_or_even q with near | ⟨half, even⟩
  · apply roundHalfEven_eq_of_near
    rw [distance, abs_neg]
    exact near
  · apply roundHalfEven_eq_of_tie
    · rw [distance, abs_neg]
      exact half
    · omega

theorem roundHalfEven_neg (q : Rat) : roundHalfEven (-q) = -roundHalfEven q := by
  simpa using roundHalfEven_reflect 0 q

/-- No integer is nearer than the rounded one. -/
theorem abs_roundHalfEven_sub_le_abs_sub (q : Rat) (n : Int) :
    |(roundHalfEven q : Rat) - q| ≤ |n - q| := by
  by_cases near : |q - n| < 1 / 2
  · rw [roundHalfEven_eq_of_near near]
  · rw [abs_sub_comm q] at near
    exact (abs_roundHalfEven_sub_le q).trans (not_lt.mp near)

namespace Binary

def toRat : Binary → Rat
  | number q => q
  | _ => 0

@[simp] theorem negate_negate (x : Binary) : x.negate.negate = x := by
  cases x with
  | number q => by_cases zero : q = 0 <;> simp [negate, zero]
  | negativeZero | infinity | nan => simp [negate]

end Binary

namespace Format

variable {format : Format} {q r : Rat}

/-! ### Changes of sign -/

theorem order_neg (base : Nat) (q : Rat) : order base (-q) = order base q := by
  simp only [order, Rat.neg_num, Rat.neg_den, Int.natAbs_neg, rat_abs_eq_abs, abs_neg]

theorem lastExponent_neg (format : Format) (q : Rat) :
    format.lastExponent (-q) = format.lastExponent q := by
  simp only [lastExponent, order_neg]

theorem nearest_neg (format : Format) (q : Rat) : format.nearest (-q) = -format.nearest q := by
  simp only [nearest, lastExponent_neg, neg_div, roundHalfEven_neg, Int.cast_neg, neg_mul]

theorem nearest_nonpos (nonpos : q ≤ 0) : format.nearest q ≤ 0 := by
  rw [← neg_nonneg, ← nearest_neg]
  exact nearest_nonneg (neg_nonneg.mpr nonpos)

theorem abs_nearest (format : Format) (q : Rat) : |format.nearest q| = format.nearest |q| := by
  rcases le_total 0 q with nonneg | nonpos
  · rw [abs_of_nonneg nonneg, abs_of_nonneg (nearest_nonneg nonneg)]
  · rw [abs_of_nonpos nonpos, abs_of_nonpos (nearest_nonpos nonpos), nearest_neg]

/-- Unless it vanishes, the rounded number has the sign of the rational. -/
theorem nearest_lt_zero_iff (nonzero : format.nearest q ≠ 0) : format.nearest q < 0 ↔ q < 0 := by
  constructor
  · intro negative
    by_contra nonneg
    exact negative.not_ge (nearest_nonneg (not_lt.mp nonneg))
  · intro negative
    exact (nearest_nonpos negative.le).lt_of_ne nonzero

/-- A changed sign passes through the rounding; only a zero loses it. -/
theorem ofRat_neg (format : Format) (nonzero : q ≠ 0) :
    format.ofRat (-q) = (format.ofRat q).negate := by
  have sign : decide (-q < 0) = !decide (q < 0) := by
    rcases lt_or_gt_of_ne nonzero with negative | positive
    · simp [negative, negative.le]
    · simp [positive, positive.le]
  simp only [ofRat, nearest_neg, rat_abs_eq_abs, abs_neg, neg_eq_zero, sign]
  split_ifs with beyond vanishes
  · rfl
  · cases decide (q < 0) <;> rfl
  · rw [Binary.negate, if_neg vanishes]

theorem round_negate (format : Format) (x : Binary) :
    format.round x.negate = (format.round x).negate := by
  cases x with
  | negativeZero => exact format.ofRat_zero
  | infinity | nan => rfl
  | number q =>
    by_cases zero : q = 0
    · simp [Binary.negate, zero, round, ofRat_zero]
    · simp only [Binary.negate, if_neg zero, round, ofRat_neg format zero]

/-! ### Units -/

/-- The last digit kept is not above the leading one. -/
theorem zpow_le_abs (nonzero : q ≠ 0) (above : format.leastExponent < format.lastExponent q) :
    (2 : Rat) ^ (format.lastExponent q + (format.precision - 1 : Nat)) ≤ |q| := by
  have leading : (2 : Rat) ^ order 2 q ≤ |q| := by
    rw [order_eq_log (le_refl 2) nonzero]
    exact_mod_cast Int.zpow_log_le_self (by norm_num : 1 < 2) (abs_pos.mpr nonzero)
  have last : format.lastExponent q + (format.precision - 1 : Nat) = order 2 q := by
    simp only [lastExponent] at above ⊢
    omega
  rw [last]
  exact leading

/-- Above the smallest exponent a magnitude has all digits of the precision. -/
theorem units_le_abs (nonzero : q ≠ 0) (above : format.leastExponent < format.lastExponent q) :
    2 ^ (format.precision - 1) * (2 : Rat) ^ format.lastExponent q ≤ |q| := by
  have leading := zpow_le_abs nonzero above
  rw [zpow_add₀ (by norm_num), zpow_natCast, mul_comm] at leading
  exact leading

/-- A number of the format in its own unit. -/
theorem Holds.exists_digits (holds : format.Holds q) (precise : 0 < format.precision) :
    ∃ n : Int, q = n * (2 : Rat) ^ format.lastExponent q ∧ |n| < 2 ^ format.precision := by
  obtain ⟨n, multiple⟩ := holds.exists_multiple (le_refl _)
  refine ⟨n, multiple, ?_⟩
  have unit := format.unit_pos q
  have below := abs_lt_units precise q
  generalize (2 : Rat) ^ format.lastExponent q = u at *
  rw [multiple, abs_mul, abs_of_pos unit] at below
  exact_mod_cast lt_of_mul_lt_mul_right below unit.le

theorem holds_zero (format : Format) : format.Holds 0 :=
  ⟨0, format.leastExponent, by simp, by positivity, le_refl _⟩

/-- The power of two above the digits of an exponent is a number of the format. -/
theorem holds_zpow (precise : 0 < format.precision) {e : Int} (least : format.leastExponent ≤ e) :
    format.Holds (2 ^ e) := by
  refine ⟨1, e, by simp, ?_, least⟩
  rw [abs_one]
  exact one_lt_pow₀ (by norm_num) precise.ne'

/-- Between two powers of two the last digit kept is the same. Below the least number with all
digits there is no further power. -/
theorem lastExponent_eq_of_between {e : Int} (precise : 0 < format.precision) (nonzero : q ≠ 0)
    (least : format.leastExponent ≤ e)
    (lower : e = format.leastExponent ∨ (2 : Rat) ^ (e + (format.precision - 1 : Nat)) ≤ |q|)
    (upper : |q| < 2 ^ (e + format.precision)) : format.lastExponent q = e := by
  refine le_antisymm (lastExponent_le nonzero least upper) ?_
  rcases lower with bottom | leading
  · rw [bottom]
    exact format.leastExponent_le q
  · have digits := abs_lt_zpow precise q
    have less := (zpow_lt_zpow_iff_right₀ (by norm_num : (1 : Rat) < 2)).mp
      (leading.trans_lt digits)
    omega

/-- Between two powers of two rounding takes the multiples of one unit, the upper power included. -/
theorem nearest_eq_of_between {e : Int} (precise : 0 < format.precision)
    (least : format.leastExponent ≤ e)
    (lower : e = format.leastExponent ∨ (2 : Rat) ^ (e + (format.precision - 1 : Nat)) ≤ |q|)
    (upper : |q| ≤ 2 ^ (e + format.precision)) :
    format.nearest q = roundHalfEven (q / 2 ^ e) * 2 ^ e := by
  have unit : (0 : Rat) < 2 ^ e := zpow_pos (by norm_num) _
  by_cases zero : q = 0
  · have fixed : roundHalfEven 0 = 0 := roundHalfEven_intCast 0
    simp [zero, nearest_zero, fixed]
  rcases upper.lt_or_eq with below | power
  · simp only [nearest, lastExponent_eq_of_between precise zero least lower below]
  · -- The power above is kept, as a multiple of the unit and as a number of the format.
    have holds : format.Holds |q| := by
      rw [power]
      exact holds_zpow precise (by omega)
    have multiple : |q| / 2 ^ e = ((2 : Int) ^ format.precision : Int) := by
      rw [power, zpow_add₀ (by norm_num), mul_div_cancel_left₀ _ unit.ne']
      norm_num
    have positive : format.nearest |q| = roundHalfEven (|q| / 2 ^ e) * 2 ^ e := by
      rw [nearest_of_holds holds, multiple, roundHalfEven_intCast, ← multiple,
        div_mul_cancel₀ _ unit.ne']
    rcases abs_choice q with same | opposite
    · rwa [same] at positive
    · rw [opposite, nearest_neg, neg_div, roundHalfEven_neg, Int.cast_neg, neg_mul] at positive
      exact neg_injective positive

/-! ### Distances -/

theorem abs_nearest_sub_le_half (format : Format) (q : Rat) :
    |format.nearest q - q| ≤ 2 ^ format.lastExponent q / 2 := by
  have unit := format.unit_pos q
  have difference : format.nearest q - q
      = (roundHalfEven (q / 2 ^ format.lastExponent q) - q / 2 ^ format.lastExponent q)
        * 2 ^ format.lastExponent q := by
    rw [nearest, sub_mul, div_mul_cancel₀ _ unit.ne']
  rw [difference, abs_mul, abs_of_pos unit]
  have moved := abs_roundHalfEven_sub_le (q / 2 ^ format.lastExponent q)
  linarith [mul_le_mul_of_nonneg_right moved unit.le]

/-- From the least number with all digits on, rounding moves by a small part of the rational. -/
theorem abs_nearest_sub_mul_le (precise : 0 < format.precision)
    (normal : (2 : Rat) ^ (format.leastExponent + (format.precision - 1 : Nat)) ≤ |q|) :
    |format.nearest q - q| * 2 ^ format.precision ≤ |q| := by
  have nonzero : q ≠ 0 := by
    rintro rfl
    rw [abs_zero] at normal
    exact absurd normal (not_le.mpr (zpow_pos (by norm_num) _))
  have leading : (2 : Rat) ^ (format.lastExponent q + (format.precision - 1 : Nat)) ≤ |q| := by
    rcases (format.leastExponent_le q).eq_or_lt with bottom | above
    · rw [← bottom]
      exact normal
    · exact zpow_le_abs nonzero above
  have half := format.abs_nearest_sub_le_half q
  obtain ⟨p, precision⟩ : ∃ p, format.precision = p + 1 := ⟨format.precision - 1, by omega⟩
  rw [precision, Nat.add_sub_cancel, zpow_add₀ (by norm_num), zpow_natCast] at leading
  rw [precision, pow_succ]
  have power : (0 : Rat) < 2 ^ p := by positivity
  calc |format.nearest q - q| * (2 ^ p * 2)
      ≤ 2 ^ format.lastExponent q / 2 * (2 ^ p * 2) :=
        mul_le_mul_of_nonneg_right half (by positivity)
    _ = 2 ^ format.lastExponent q * 2 ^ p := by ring
    _ ≤ |q| := leading

/-! ### Nearest numbers -/

/-- No number of the format is nearer than the rounded one. -/
theorem abs_nearest_sub_le_of_holds (precise : 0 < format.precision) (holds : format.Holds r)
    (q : Rat) : |format.nearest q - q| ≤ |r - q| := by
  have unit := format.unit_pos q
  -- Among the multiples of the unit rounding takes a nearest one.
  have among (n : Int) : |format.nearest q - q| ≤ |n * 2 ^ format.lastExponent q - q| := by
    have scaled (m : Rat) : |m * 2 ^ format.lastExponent q - q|
        = |m - q / 2 ^ format.lastExponent q| * 2 ^ format.lastExponent q := by
      rw [← abs_of_pos unit, ← abs_mul, abs_of_pos unit, sub_mul, div_mul_cancel₀ _ unit.ne']
    rw [nearest, scaled, scaled]
    exact mul_le_mul_of_nonneg_right (abs_roundHalfEven_sub_le_abs_sub _ n) unit.le
  by_cases zero : q = 0
  · rw [zero, nearest_zero, sub_zero, abs_zero]
    exact abs_nonneg _
  by_cases finer : format.lastExponent q ≤ format.lastExponent r
  · obtain ⟨n, rfl⟩ := holds.exists_multiple finer
    exact among n
  · -- A number with smaller digits lies below the leading power of the rational.
    have leading := zpow_le_abs zero ((format.leastExponent_le r).trans_lt (not_le.mp finer))
    have small : |r| ≤ 2 ^ (format.lastExponent q + (format.precision - 1 : Nat)) := by
      refine (abs_lt_zpow precise r).le.trans (zpow_le_zpow_right₀ (by norm_num) ?_)
      omega
    have power : (2 : Rat) ^ (format.lastExponent q + (format.precision - 1 : Nat))
        = ((2 : Int) ^ (format.precision - 1) : Int) * 2 ^ format.lastExponent q := by
      rw [zpow_add₀ (by norm_num), mul_comm]
      norm_num
    rw [power] at leading small
    rcases le_total 0 q with nonneg | nonpos
    · refine (among (2 ^ (format.precision - 1))).trans ?_
      rw [abs_of_nonneg nonneg] at leading
      rw [abs_of_nonpos (by linarith), abs_of_nonpos (by linarith [le_abs_self r])]
      linarith [le_abs_self r]
    · refine (among (-2 ^ (format.precision - 1))).trans ?_
      rw [abs_of_nonpos nonpos] at leading
      rw [Int.cast_neg, neg_mul, abs_of_nonneg (by linarith),
        abs_of_nonneg (by linarith [neg_abs_le r])]
      linarith [neg_abs_le r]

/-- Rounding keeps the order. -/
theorem nearest_mono (precise : 0 < format.precision) (le : q ≤ r) :
    format.nearest q ≤ format.nearest r := by
  rcases le.eq_or_lt with rfl | less
  · exact le_refl _
  by_contra crossed
  rw [not_le] at crossed
  -- The smaller rational is beyond the middle of the two results, the larger one before it.
  have own := abs_nearest_sub_le_of_holds precise (holds_nearest precise r) q
  have other := abs_nearest_sub_le_of_holds precise (holds_nearest precise q) r
  generalize format.nearest q = a at *
  generalize format.nearest r = b at *
  have own : (a - q) ^ 2 ≤ (b - q) ^ 2 := sq_le_sq.mpr own
  have other : (b - r) ^ 2 ≤ (a - r) ^ 2 := sq_le_sq.mpr other
  have product := mul_pos (sub_pos.mpr crossed) (sub_pos.mpr less)
  linarith

/-- Rounding does not carry a magnitude past a number of the format. -/
theorem abs_nearest_le_of_holds (precise : 0 < format.precision) (holds : format.Holds r)
    (le : |q| ≤ r) : |format.nearest q| ≤ r := by
  rw [abs_nearest, ← nearest_of_holds holds]
  exact nearest_mono precise le

theorem le_abs_nearest_of_holds (precise : 0 < format.precision) (holds : format.Holds r)
    (le : r ≤ |q|) : r ≤ |format.nearest q| := by
  rw [abs_nearest, ← nearest_of_holds holds]
  exact nearest_mono precise le

/-! ### The two formats -/

theorem single_precise : 0 < single.precision := by decide

theorem double_precise : 0 < double.precision := by decide

theorem double_ordered : double.leastExponent ≤ double.greatestExponent := by decide

theorem Holds.widen (holds : single.Holds q) : double.Holds q :=
  holds.mono (by decide) (by decide)

/-- A number that the format keeps as a datum is a number of the format. -/
theorem holds_of_ofRat_self (precise : 0 < format.precision)
    (fits : format.ofRat q = .number q) : format.Holds q := by
  by_cases zero : q = 0
  · rw [zero]
    exact format.holds_zero
  · exact (nearest_eq_self_iff precise).mp ((ofRat_eq_number_iff zero).mp fits).1

end Format

end Calculator
