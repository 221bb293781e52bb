import Calculator.Proofs.Number.Decimal
import Calculator.Proofs.Number.Nearest

/-!
# Rounding twice

A rational is rounded to a fine format and the result to a coarse one. This is the same as rounding
once to the coarse format, unless the fine format carries the rational to the very middle between
two neighbouring numbers of the coarse one: there the last digit decides, and the side on which the
rational was is forgotten.

## Main results

- `Format.nearest_nearest_iff`: when two roundings give the nearest number of the coarse format.
- `Format.round_ofRat_iff`: the same for data, with the infinities of both formats.

## Proof strategy

Two neighbours of the coarse format and the middle between them are numbers of the fine one. Hence
the first rounding does not leave the side of the middle on which the rational is; it can only reach
the middle itself.
-/

namespace Calculator.Format

variable {format coarse fine : Format} {q r : Rat} {k e : Int}

/-! ### Neighbours -/

/-- The nonnegative numbers `k * 2 ^ e` and `(k + 1) * 2 ^ e` are numbers of the format with none
between them. -/
structure Neighbours (format : Format) (k e : Int) : Prop where
  nonneg : 0 ≤ k
  digits : k + 1 ≤ 2 ^ format.precision
  least : format.leastExponent ≤ e
  leading : e = format.leastExponent ∨ 2 ^ (format.precision - 1) ≤ k

/-- A positive rational lies between two neighbours. -/
theorem exists_neighbours (precise : 0 < format.precision) (positive : 0 < q) :
    ∃ k e, format.Neighbours k e ∧ k * (2 : Rat) ^ e ≤ q ∧ q < (k + 1) * (2 : Rat) ^ e := by
  have unit := format.unit_pos q
  have below := abs_lt_units precise q
  rw [abs_of_pos positive] at below
  have lower : (q / 2 ^ format.lastExponent q).floor * (2 : Rat) ^ format.lastExponent q ≤ q := by
    rw [← le_div_iff₀ unit]
    exact Int.floor_le _
  have upper :
      q < ((q / 2 ^ format.lastExponent q).floor + 1) * (2 : Rat) ^ format.lastExponent q := by
    rw [← div_lt_iff₀ unit]
    exact Int.lt_floor_add_one _
  -- The multiples of the last digit below and above are neighbours.
  refine ⟨_, _, ⟨?_, ?_, format.leastExponent_le q, ?_⟩, lower, upper⟩
  · exact Rat.le_floor_iff.mpr (by simpa using (div_pos positive unit).le)
  · have digits := lt_of_mul_lt_mul_right (lower.trans_lt below) unit.le
    exact Int.add_one_le_iff.mpr (by exact_mod_cast digits)
  · rcases (format.leastExponent_le q).eq_or_lt with bottom | above
    · exact .inl bottom.symm
    · right
      have leading := units_le_abs positive.ne' above
      rw [abs_of_pos positive, ← le_div_iff₀ unit] at leading
      exact Rat.le_floor_iff.mpr (by exact_mod_cast leading)

namespace Neighbours

variable (pair : format.Neighbours k e)

include pair

/-- What lies between neighbours lies between two powers of two. -/
theorem between (lower : k * (2 : Rat) ^ e ≤ q) :
    0 ≤ q ∧ (e = format.leastExponent ∨ (2 : Rat) ^ (e + (format.precision - 1 : Nat)) ≤ |q|) ∧
      ((k : Rat) + 1) * 2 ^ e ≤ 2 ^ (e + format.precision) := by
  have unit : (0 : Rat) < 2 ^ e := zpow_pos (by norm_num) _
  have base : (0 : Rat) ≤ k := by exact_mod_cast pair.nonneg
  have nonneg : 0 ≤ q := (mul_nonneg base unit.le).trans lower
  refine ⟨nonneg, pair.leading.imp_right fun leading => ?_, ?_⟩
  · have leading : (2 : Rat) ^ (format.precision - 1) ≤ k := by exact_mod_cast leading
    rw [abs_of_nonneg nonneg, zpow_add₀ (by norm_num), zpow_natCast, mul_comm]
    exact (mul_le_mul_of_nonneg_right leading unit.le).trans lower
  · have digits : (k : Rat) + 1 ≤ 2 ^ format.precision := by exact_mod_cast pair.digits
    rw [zpow_add₀ (by norm_num), zpow_natCast, mul_comm _ ((2 : Rat) ^ format.precision)]
    exact mul_le_mul_of_nonneg_right digits unit.le

private theorem lastExponent_eq (precise : 0 < format.precision) (positive : 0 < q)
    (lower : k * (2 : Rat) ^ e ≤ q) (upper : q < (k + 1) * (2 : Rat) ^ e) :
    format.lastExponent q = e := by
  obtain ⟨-, leading, power⟩ := pair.between lower
  refine lastExponent_eq_of_between precise positive.ne' pair.least leading ?_
  rw [abs_of_pos positive]
  exact upper.trans_le power

/-- Between neighbours rounding takes the multiples of their distance. -/
theorem nearest_eq (precise : 0 < format.precision) (lower : k * (2 : Rat) ^ e ≤ q)
    (upper : q ≤ (k + 1) * (2 : Rat) ^ e) :
    format.nearest q = roundHalfEven (q / 2 ^ e) * 2 ^ e := by
  obtain ⟨nonneg, leading, power⟩ := pair.between lower
  refine nearest_eq_of_between precise pair.least leading ?_
  rw [abs_of_nonneg nonneg]
  exact upper.trans power

/-- Before the middle the lower neighbour is the nearest. -/
private theorem nearest_of_lt (precise : 0 < format.precision) (lower : k * (2 : Rat) ^ e ≤ q)
    (near : q < (k + 1 / 2) * (2 : Rat) ^ e) : format.nearest q = k * 2 ^ e := by
  have unit : (0 : Rat) < 2 ^ e := zpow_pos (by norm_num) _
  rw [pair.nearest_eq precise lower (by linarith), roundHalfEven_eq_of_near]
  rw [← le_div_iff₀ unit] at lower
  rw [← div_lt_iff₀ unit] at near
  rw [abs_of_nonneg (by linarith)]
  linarith

/-- Behind the middle the upper neighbour is the nearest. -/
private theorem nearest_of_gt (precise : 0 < format.precision)
    (near : (k + 1 / 2) * (2 : Rat) ^ e < q) (upper : q ≤ (k + 1) * (2 : Rat) ^ e) :
    format.nearest q = (k + 1) * 2 ^ e := by
  have unit : (0 : Rat) < 2 ^ e := zpow_pos (by norm_num) _
  rw [pair.nearest_eq precise (by linarith) upper,
    roundHalfEven_eq_of_near (n := k + 1), Int.cast_add, Int.cast_one]
  rw [← div_le_iff₀ unit] at upper
  rw [← lt_div_iff₀ unit] at near
  rw [Int.cast_add, Int.cast_one, abs_of_nonpos (by linarith)]
  linarith

/-- In the middle it is one of the two. -/
private theorem nearest_middle (precise : 0 < format.precision) :
    format.nearest ((k + 1 / 2) * 2 ^ e) = k * 2 ^ e ∨
      format.nearest ((k + 1 / 2) * 2 ^ e) = (k + 1) * 2 ^ e := by
  have unit : (0 : Rat) < 2 ^ e := zpow_pos (by norm_num) _
  rw [pair.nearest_eq precise (by linarith) (by linarith), mul_div_cancel_right₀ _ unit.ne']
  have moved := abs_roundHalfEven_sub_le ((k : Rat) + 1 / 2)
  rw [abs_le] at moved
  have lower : (k : Rat) ≤ roundHalfEven (k + 1 / 2) := by linarith
  have upper : (roundHalfEven (k + 1 / 2) : Rat) ≤ k + 1 := by linarith
  have lower : k ≤ roundHalfEven (k + 1 / 2) := by exact_mod_cast lower
  have upper : roundHalfEven (k + 1 / 2) ≤ k + 1 := by exact_mod_cast upper
  rcases (by omega : roundHalfEven ((k : Rat) + 1 / 2) = k ∨
    roundHalfEven ((k : Rat) + 1 / 2) = k + 1) with even | even
  · rw [even]
    exact .inl rfl
  · rw [even, Int.cast_add, Int.cast_one]
    exact .inr rfl

end Neighbours

/-! ### Midpoints -/

/-- A rational is a midpoint of the format if it is as far from the nearest number as can be: by
half the last digit that is kept. -/
def IsMidpoint (format : Format) (q : Rat) : Prop :=
  |format.nearest q - q| * 2 = 2 ^ format.lastExponent q

instance (format : Format) (q : Rat) : Decidable (format.IsMidpoint q) :=
  inferInstanceAs (Decidable (_ = _))

theorem isMidpoint_neg : format.IsMidpoint (-q) ↔ format.IsMidpoint q := by
  have opposite : -format.nearest q - -q = -(format.nearest q - q) := by ring
  simp only [IsMidpoint, nearest_neg, lastExponent_neg, opposite, abs_neg]

private theorem Holds.not_isMidpoint (holds : format.Holds q) : ¬ format.IsMidpoint q := by
  intro midpoint
  rw [IsMidpoint, nearest_of_holds holds, sub_self, abs_zero, zero_mul] at midpoint
  exact (format.unit_pos q).ne midpoint

/-- Between neighbours only the middle is a midpoint. -/
theorem Neighbours.isMidpoint_iff (pair : format.Neighbours k e) (precise : 0 < format.precision)
    (lower : k * (2 : Rat) ^ e ≤ q) (upper : q ≤ (k + 1) * (2 : Rat) ^ e) :
    format.IsMidpoint q ↔ q = (k + 1 / 2) * 2 ^ e := by
  have unit : (0 : Rat) < 2 ^ e := zpow_pos (by norm_num) _
  have base : (0 : Rat) ≤ k := by exact_mod_cast pair.nonneg
  have start : 0 ≤ k * (2 : Rat) ^ e := mul_nonneg base unit.le
  constructor
  · intro midpoint
    -- The neighbours themselves are numbers of the format, at no distance from the nearest.
    have positive : 0 < q := by
      refine (start.trans lower).lt_of_ne' ?_
      rintro rfl
      rw [IsMidpoint, nearest_zero, sub_self, abs_zero, zero_mul] at midpoint
      exact (format.unit_pos 0).ne midpoint
    rcases upper.lt_or_eq with inside | edge
    · rw [IsMidpoint, pair.lastExponent_eq precise positive lower inside] at midpoint
      rcases lt_trichotomy q ((k + 1 / 2) * 2 ^ e) with before | middle | behind
      · rw [pair.nearest_of_lt precise lower before, abs_of_nonpos (by linarith)] at midpoint
        linarith
      · exact middle
      · rw [pair.nearest_of_gt precise behind upper, abs_of_nonneg (by linarith)] at midpoint
        linarith
    · rw [IsMidpoint, pair.nearest_of_gt precise (by linarith) upper, ← edge, sub_self, abs_zero,
        zero_mul] at midpoint
      exact absurd midpoint (format.unit_pos q).ne
  · rintro rfl
    have positive : 0 < (k + 1 / 2) * (2 : Rat) ^ e := by linarith
    rw [IsMidpoint, pair.lastExponent_eq precise positive lower (by linarith)]
    rcases pair.nearest_middle precise with even | even <;> rw [even]
    · rw [abs_of_nonpos (by linarith)]
      linarith
    · rw [abs_of_nonneg (by linarith)]
      linarith

/-! ### Two roundings to a nearest number -/

/-- A format that holds the midpoints of a coarser one, and all its range. -/
structure Refines (fine coarse : Format) : Prop where
  precise : 0 < coarse.precision
  digits : coarse.precision < fine.precision
  least : fine.leastExponent < coarse.leastExponent
  ordered : coarse.leastExponent ≤ coarse.greatestExponent
  range : coarse.overflowExponent ≤ fine.greatestExponent

theorem double_refines_single : double.Refines single :=
  ⟨by decide, by decide, by decide, by decide, by decide⟩

/-- The rational is rounded to a midpoint of the coarser format, and the nearest number taken from
there lies on the other side. -/
def CrossesMidpoint (fine coarse : Format) (q : Rat) : Prop :=
  coarse.IsMidpoint (fine.nearest q) ∧
    (q < fine.nearest q ∧ fine.nearest q < coarse.nearest (fine.nearest q) ∨
      coarse.nearest (fine.nearest q) < fine.nearest q ∧ fine.nearest q < q)

instance (fine coarse : Format) (q : Rat) : Decidable (fine.CrossesMidpoint coarse q) :=
  inferInstanceAs (Decidable (_ ∧ _))

private theorem crossesMidpoint_neg :
    fine.CrossesMidpoint coarse (-q) ↔ fine.CrossesMidpoint coarse q := by
  simp only [CrossesMidpoint, nearest_neg, isMidpoint_neg, neg_lt_neg_iff]
  rw [or_comm]
  simp only [and_comm]

/-- What the finer format holds is not moved at all. -/
theorem Holds.not_crossesMidpoint (holds : fine.Holds q) : ¬ fine.CrossesMidpoint coarse q := by
  rintro ⟨-, ⟨moved, -⟩ | ⟨-, moved⟩⟩ <;> rw [nearest_of_holds holds] at moved
  · exact lt_irrefl q moved
  · exact lt_irrefl q moved

/-- Neighbours and the middle between them are numbers of the finer format. -/
theorem Neighbours.holds_fine (pair : coarse.Neighbours k e) (refines : fine.Refines coarse) :
    fine.Holds (k * 2 ^ e) ∧ fine.Holds ((k + 1 / 2) * 2 ^ e) ∧ fine.Holds ((k + 1) * 2 ^ e) := by
  have least := refines.least.trans_le pair.least
  have nonneg := pair.nonneg
  have power : (2 : Int) ^ coarse.precision * 2 ≤ 2 ^ fine.precision := by
    rw [← pow_succ]
    exact pow_le_pow_right₀ (by norm_num) refines.digits
  have digits := pair.digits
  refine ⟨⟨k, e, rfl, ?_, least.le⟩, ⟨2 * k + 1, e - 1, ?_, ?_, by omega⟩,
    ⟨k + 1, e, by push_cast; rfl, ?_, least.le⟩⟩
  · rw [abs_of_nonneg nonneg]
    omega
  · rw [zpow_sub₀ (by norm_num), zpow_one]
    push_cast
    ring
  · rw [abs_of_nonneg (by omega)]
    omega
  · rw [abs_of_nonneg (by omega)]
    omega

private theorem nearest_nearest_iff_of_pos (refines : fine.Refines coarse) (positive : 0 < q) :
    coarse.nearest (fine.nearest q) = coarse.nearest q ↔ ¬ fine.CrossesMidpoint coarse q := by
  have precise := refines.precise
  have fineDigits : 0 < fine.precision := precise.trans refines.digits
  obtain ⟨k, e, pair, lower, upper⟩ := exists_neighbours precise positive
  obtain ⟨holdsLower, holdsMiddle, holdsUpper⟩ := pair.holds_fine refines
  have unit : (0 : Rat) < 2 ^ e := zpow_pos (by norm_num) _
  -- The finer format keeps its own numbers, so that rounding to it does not pass them.
  have low : k * (2 : Rat) ^ e ≤ fine.nearest q := by
    rw [← nearest_of_holds holdsLower]
    exact nearest_mono fineDigits lower
  have high : fine.nearest q ≤ (k + 1) * (2 : Rat) ^ e := by
    rw [← nearest_of_holds holdsUpper]
    exact nearest_mono fineDigits upper.le
  have midpoint := pair.isMidpoint_iff precise low high
  rcases lt_trichotomy q ((k + 1 / 2) * 2 ^ e) with before | rfl | behind
  · have side : fine.nearest q ≤ (k + 1 / 2) * 2 ^ e := by
      rw [← nearest_of_holds holdsMiddle]
      exact nearest_mono fineDigits before.le
    rw [pair.nearest_of_lt precise lower before]
    rcases side.lt_or_eq with same | middle
    · rw [pair.nearest_of_lt precise low same]
      exact iff_of_true rfl fun crosses => same.ne (midpoint.mp crosses.1)
    · have reached := midpoint.mpr middle
      simp only [CrossesMidpoint, middle] at reached ⊢
      rcases pair.nearest_middle precise with even | even <;> rw [even]
      · exact iff_of_true rfl (by rintro ⟨-, ⟨-, beyond⟩ | ⟨-, beyond⟩⟩ <;> linarith)
      · exact iff_of_false (by linarith) (not_not_intro ⟨reached, .inl ⟨before, by linarith⟩⟩)
  · exact iff_of_true (by rw [nearest_of_holds holdsMiddle]) holdsMiddle.not_crossesMidpoint
  · have side : (k + 1 / 2) * 2 ^ e ≤ fine.nearest q := by
      rw [← nearest_of_holds holdsMiddle]
      exact nearest_mono fineDigits behind.le
    rw [pair.nearest_of_gt precise behind upper.le]
    rcases side.lt_or_eq' with same | middle
    · rw [pair.nearest_of_gt precise same high]
      exact iff_of_true rfl fun crosses => same.ne' (midpoint.mp crosses.1)
    · have reached := midpoint.mpr middle
      simp only [CrossesMidpoint, middle] at reached ⊢
      rcases pair.nearest_middle precise with even | even <;> rw [even]
      · exact iff_of_false (by linarith) (not_not_intro ⟨reached, .inr ⟨by linarith, behind⟩⟩)
      · exact iff_of_true rfl (by rintro ⟨-, ⟨beyond, -⟩ | ⟨beyond, -⟩⟩ <;> linarith)

/-- Two roundings reach the nearest number of the coarser format unless they cross a midpoint. -/
theorem nearest_nearest_iff (refines : fine.Refines coarse) (q : Rat) :
    coarse.nearest (fine.nearest q) = coarse.nearest q ↔ ¬ fine.CrossesMidpoint coarse q := by
  rcases lt_trichotomy q 0 with negative | rfl | positive
  · have mirrored := nearest_nearest_iff_of_pos refines (neg_pos.mpr negative)
    simpa only [nearest_neg, neg_inj, crossesMidpoint_neg] using mirrored
  · exact iff_of_true (by rw [nearest_zero]) fine.holds_zero.not_crossesMidpoint
  · exact nearest_nearest_iff_of_pos refines positive

/-! ### Two roundings of data -/

/-- Below the power of two that bounds a format its numbers do not exceed the largest. -/
theorem Holds.abs_le_largest (holds : format.Holds q) (precise : 0 < format.precision)
    (below : |q| < 2 ^ format.overflowExponent) : |q| ≤ format.largest := by
  have unit : (0 : Rat) < 2 ^ format.greatestExponent := zpow_pos (by norm_num) _
  by_cases coarse : format.greatestExponent ≤ format.lastExponent q
  · obtain ⟨n, multiple⟩ := holds.exists_multiple coarse
    rw [multiple, abs_mul, abs_of_pos unit] at below ⊢
    rw [overflowExponent, zpow_add₀ (by norm_num), zpow_natCast, mul_comm] at below
    have digits := lt_of_mul_lt_mul_left below unit.le
    have digits : |n| + 1 ≤ (2 : Int) ^ format.precision := by exact_mod_cast digits
    have digits : |(n : Rat)| + 1 ≤ 2 ^ format.precision := by exact_mod_cast digits
    exact mul_le_mul_of_nonneg_right (by linarith) unit.le
  · have small := abs_lt_zpow precise q
    obtain ⟨p, precision⟩ : ∃ p, format.precision = p + 1 := ⟨format.precision - 1, by omega⟩
    have power : (1 : Rat) ≤ 2 ^ p := one_le_pow₀ (by norm_num)
    calc |q| ≤ 2 ^ (format.greatestExponent + p) :=
          small.le.trans (zpow_le_zpow_right₀ (by norm_num) (by omega))
      _ = 2 ^ p * 2 ^ format.greatestExponent := by
          rw [zpow_add₀ (by norm_num), zpow_natCast, mul_comm]
      _ ≤ format.largest := by
          rw [largest, precision, pow_succ]
          exact mul_le_mul_of_nonneg_right (by linarith) unit.le

/-- Rationals of one sign and not too large are rounded to the same datum only if they are rounded
to the same number. -/
theorem ofRat_eq_ofRat_iff (precise : 0 < format.precision)
    (sign : decide (r < 0) = decide (q < 0))
    (first : |format.nearest r| ≤ 2 ^ format.overflowExponent)
    (second : |format.nearest q| ≤ 2 ^ format.overflowExponent) :
    format.ofRat r = format.ofRat q ↔ format.nearest r = format.nearest q := by
  constructor
  · intro equal
    simp only [ofRat, rat_abs_eq_abs, sign, Binary.zero] at equal
    by_cases beyond : format.largest < |format.nearest r|
    · -- Both overflow, and only the bounding power of two is left for their magnitudes.
      have both : format.largest < |format.nearest q| := by
        by_contra within
        rw [if_pos beyond, if_neg within] at equal
        split_ifs at equal
      have bound {s : Rat} (exceeds : format.largest < |format.nearest s|)
          (limited : |format.nearest s| ≤ 2 ^ format.overflowExponent) :
          |format.nearest s| = 2 ^ format.overflowExponent :=
        limited.antisymm (not_lt.mp fun below =>
          exceeds.not_ge ((holds_nearest precise s).abs_le_largest precise below))
      have magnitude := (bound beyond first).trans (bound both second).symm
      rw [decide_eq_decide] at sign
      by_cases negative : q < 0
      · rw [abs_of_nonpos (nearest_nonpos negative.le),
          abs_of_nonpos (nearest_nonpos (sign.mpr negative).le)] at magnitude
        exact neg_injective magnitude
      · rw [abs_of_nonneg (nearest_nonneg (not_lt.mp negative)),
          abs_of_nonneg (nearest_nonneg (not_lt.mp (sign.not.mpr negative)))] at magnitude
        exact magnitude
    · rw [if_neg beyond] at equal
      split_ifs at equal <;> simp_all
  · intro equal
    simp only [ofRat, equal, sign]

/-- The detour through the finer format gives another datum: it crosses a midpoint in the range of
the coarser one. -/
def Misleads (fine coarse : Format) (q : Rat) : Prop :=
  |fine.nearest q| < 2 ^ coarse.overflowExponent ∧ fine.CrossesMidpoint coarse q

instance (fine coarse : Format) (q : Rat) : Decidable (fine.Misleads coarse q) :=
  inferInstanceAs (Decidable (_ ∧ _))

theorem round_zero (format : Format) (negative : Bool) :
    format.round (.zero negative) = .zero negative := by
  cases negative
  · exact format.ofRat_zero
  · rfl

private theorem ofRat_of_nearest_eq_zero (vanishes : format.nearest q = 0) :
    format.ofRat q = .zero (q < 0) := by
  simp only [ofRat, vanishes, rat_abs_eq_abs, abs_zero, if_neg (not_lt.mpr format.largest_nonneg),
    if_true]

private theorem Refines.holds_overflow (refines : fine.Refines coarse) :
    fine.Holds (2 ^ coarse.overflowExponent) := by
  have least := refines.least
  have ordered := refines.ordered
  exact holds_zpow (refines.precise.trans refines.digits) (by rw [overflowExponent]; omega)

theorem Refines.overflow_le_largest (refines : fine.Refines coarse) :
    (2 : Rat) ^ coarse.overflowExponent ≤ fine.largest := by
  have unit : (0 : Rat) < 2 ^ fine.greatestExponent := zpow_pos (by norm_num) _
  have digits : (2 : Rat) ≤ 2 ^ fine.precision :=
    le_self_pow₀ (by norm_num) (refines.precise.trans refines.digits).ne'
  calc (2 : Rat) ^ coarse.overflowExponent ≤ 1 * 2 ^ fine.greatestExponent := by
        rw [one_mul]
        exact zpow_le_zpow_right₀ (by norm_num) refines.range
    _ ≤ fine.largest := mul_le_mul_of_nonneg_right (by linarith) unit.le

/-- A rational beyond the range of the coarser format overflows in either way. -/
theorem round_ofRat_of_huge (refines : fine.Refines coarse)
    (huge : (2 : Rat) ^ coarse.overflowExponent ≤ |q|) :
    coarse.round (fine.ofRat q) = .infinity (q < 0) := by
  have fineDigits : 0 < fine.precision := refines.precise.trans refines.digits
  have reached := le_abs_nearest_of_holds fineDigits refines.holds_overflow huge
  have nonzero : fine.nearest q ≠ 0 := by
    intro zero
    rw [zero, abs_zero] at reached
    exact absurd reached (not_le.mpr (zpow_pos (by norm_num) _))
  simp only [ofRat, rat_abs_eq_abs, if_neg nonzero]
  split_ifs with beyond
  · rfl
  · rw [round, ofRat_of_huge refines.precise refines.ordered reached,
      decide_eq_decide.mpr (nearest_lt_zero_iff nonzero)]

/-- Two roundings give the datum of one unless the detour misleads. -/
theorem round_ofRat_iff (refines : fine.Refines coarse) (q : Rat) :
    coarse.round (fine.ofRat q) = coarse.ofRat q ↔ ¬ fine.Misleads coarse q := by
  have precise := refines.precise
  have fineDigits : 0 < fine.precision := precise.trans refines.digits
  by_cases huge : (2 : Rat) ^ coarse.overflowExponent ≤ |q|
  · have reached := le_abs_nearest_of_holds fineDigits refines.holds_overflow huge
    refine iff_of_true ?_ fun misled => reached.not_gt misled.1
    rw [round_ofRat_of_huge refines huge, ofRat_of_huge precise refines.ordered huge]
  have limited : |fine.nearest q| ≤ 2 ^ coarse.overflowExponent :=
    abs_nearest_le_of_holds fineDigits refines.holds_overflow (not_le.mp huge).le
  have held : coarse.Holds (2 ^ coarse.overflowExponent) := by
    have ordered := refines.ordered
    exact holds_zpow precise (by rw [overflowExponent]; omega)
  have misleads : fine.Misleads coarse q ↔ fine.CrossesMidpoint coarse q := by
    refine ⟨And.right, fun crosses => ⟨limited.lt_of_ne fun edge => ?_, crosses⟩⟩
    -- The bounding power itself is a number of the coarser format and no midpoint.
    rw [← edge] at held
    rcases abs_choice (fine.nearest q) with same | opposite
    · exact (same ▸ held).not_isMidpoint crosses.1
    · exact (opposite ▸ held).not_isMidpoint (isMidpoint_neg.mpr crosses.1)
  have inside : ¬ fine.largest < |fine.nearest q| :=
    not_lt.mpr (limited.trans refines.overflow_le_largest)
  rw [misleads]
  by_cases vanishes : fine.nearest q = 0
  · have plain : ¬ fine.CrossesMidpoint coarse q := by
      intro crosses
      rw [CrossesMidpoint, vanishes] at crosses
      exact coarse.holds_zero.not_isMidpoint crosses.1
    have also := (nearest_nearest_iff refines q).mpr plain
    rw [vanishes, nearest_zero] at also
    refine iff_of_true ?_ plain
    rw [ofRat_of_nearest_eq_zero vanishes, round_zero, ofRat_of_nearest_eq_zero also.symm]
  · have widened : fine.ofRat q = .number (fine.nearest q) := by
      simp only [ofRat, rat_abs_eq_abs, if_neg inside, if_neg vanishes]
    rw [widened, round, ← nearest_nearest_iff refines]
    exact ofRat_eq_ofRat_iff precise (decide_eq_decide.mpr (nearest_lt_zero_iff vanishes))
      (abs_nearest_le_of_holds precise held limited)
      (abs_nearest_le_of_holds precise held (not_le.mp huge).le)

end Calculator.Format
