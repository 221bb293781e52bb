import Calculator.Proofs.Number.Nearest
import Calculator.Proofs.Number.Notation
import Mathlib.Algebra.Order.Group.Pointwise.Interval
import Mathlib.Order.Interval.Set.OrdConnected

/-!
# Significant digits

A decimal is written without the zeros at its end. How many digits are left depends on its value
only. The decimals with few digits are sparse: those next to a rational with as many digits as are
allowed include one at least as near as any other, on either side of the rational.

## Main results

- `Decimal.digits_le_iff`: the number of significant digits, in terms of the value.
- `Decimal.abs_nearest_sub_le_of_hasDigits`: no decimal with so many digits is nearer than the
  nearest one.
- `Format.digits_shortestDouble_le`: the decimal of a double-format number has no more digits than
  any other that reads back as it.
-/

namespace Calculator

open Token

/-! ### Digits and their value -/

private theorem Token.digitsValue_singleton_lt {c : Char} (digit : isDigit c = true) :
    digitsValue [c] < 10 := by
  have range := isDigit_iff.mp digit
  simp only [Char.isDigit, Bool.and_eq_true, decide_eq_true_eq] at range
  have below : c.toNat ≤ 57 := UInt32.le_iff_toNat_le.mp range.2
  have zero : '0'.toNat = 48 := rfl
  simp only [digitsValue, List.foldl_cons, List.foldl_nil, Nat.mul_zero, Nat.zero_add]
  omega

private theorem Token.digitsValue_lt {digits : List Char} (run : ∀ c ∈ digits, isDigit c = true) :
    digitsValue digits < 10 ^ digits.length := by
  induction digits using List.reverseRecOn with
  | nil => decide
  | append_singleton front c ih =>
    have front := ih fun d member => run d (List.mem_append_left _ member)
    have last := digitsValue_singleton_lt (run c (by simp))
    rw [digitsValue_append, List.length_append, List.length_singleton, pow_succ]
    omega

/-- The last of the significant digits is no zero. -/
theorem Layout.not_dvd_significantDigits {n : Nat} (nonzero : n ≠ 0) :
    ¬ 10 ∣ digitsValue (significantDigits n) := by
  obtain ⟨first, rest, nonempty, -⟩ := exists_significantDigits_eq_cons nonzero
  have run (c : Char) (member : c ∈ significantDigits n) := isDigit_of_mem_significantDigits member
  have reversed : (significantDigits n).reverse
      = (Nat.toDigits 10 n).reverse.dropWhile (· == '0') := List.reverse_reverse _
  cases behind : (Nat.toDigits 10 n).reverse.dropWhile (· == '0') with
  | nil =>
    rw [behind, List.reverse_eq_nil_iff, nonempty] at reversed
    cases reversed
  | cons last others =>
    have head := List.head?_dropWhile_not (· == '0') (Nat.toDigits 10 n).reverse
    rw [behind] at head reversed
    have nonzero : last ≠ '0' := by simpa using head
    rw [List.reverse_eq_cons_iff] at reversed
    have digit := run last (by simp [reversed])
    have small := digitsValue_singleton_lt digit
    have large : 10 ^ [].length ≤ digitsValue [last] := pow_length_le_digitsValue digit nonzero
    rw [reversed, digitsValue_append]
    simp only [List.length_nil, pow_zero, List.length_singleton, pow_one] at large ⊢
    omega

namespace Decimal

def digits (d : Decimal) : Nat :=
  (Layout.significantDigits d.coefficient).length

def HasDigits (n : Nat) (r : Rat) : Prop :=
  ∃ (coefficient : Nat) (exponent : Int),
    coefficient < 10 ^ n ∧ r = coefficient * (10 : Rat) ^ exponent

variable {d : Decimal} {n : Nat} {q r : Rat}

theorem hasDigits_digits (d : Decimal) : HasDigits d.digits d.toRat :=
  ⟨_, _, digitsValue_lt fun _ => Layout.isDigit_of_mem_significantDigits,
    Layout.toRat_eq_significant d⟩

/-- Without zeros at the end no coefficient is smaller. -/
private theorem le_of_mul_zpow_eq {a c : Nat} {f e : Int} (bare : ¬ 10 ∣ a)
    (same : (a : Rat) * 10 ^ f = c * 10 ^ e) : a ≤ c := by
  have tens (k : Int) : (0 : Rat) < 10 ^ k := zpow_pos (by norm_num) _
  rcases le_total e f with below | above
  · obtain ⟨k, rfl⟩ : ∃ k : Nat, f = k + e := ⟨(f - e).toNat, by omega⟩
    rw [zpow_add₀ (by norm_num), ← mul_assoc, zpow_natCast] at same
    have whole : a * 10 ^ k = c := by exact_mod_cast mul_right_cancel₀ (tens e).ne' same
    rw [← whole]
    exact Nat.le_mul_of_pos_right a (by positivity)
  · obtain ⟨k, rfl⟩ : ∃ k : Nat, e = k + f := ⟨(e - f).toNat, by omega⟩
    rw [zpow_add₀ (by norm_num), ← mul_assoc, zpow_natCast] at same
    have whole : a = c * 10 ^ k := by exact_mod_cast mul_right_cancel₀ (tens f).ne' same
    cases k with
    | zero => simp [whole]
    | succ k => exact absurd ⟨c * 10 ^ k, by rw [whole]; ring⟩ bare

/-- The number of significant digits depends on the value only. -/
theorem digits_le_iff : d.digits ≤ n ↔ HasDigits n d.toRat := by
  constructor
  · intro few
    obtain ⟨c, e, small, value⟩ := hasDigits_digits d
    exact ⟨c, e, small.trans_le (Nat.pow_le_pow_right (by decide) few), value⟩
  · rintro ⟨c, e, small, value⟩
    by_cases zero : d.coefficient = 0
    · rw [digits, zero]
      exact Nat.zero_le n
    · obtain ⟨first, rest, significant, digit, nonzero, -⟩ :=
        Layout.exists_significantDigits_eq_cons zero
      have bare := le_of_mul_zpow_eq (Layout.not_dvd_significantDigits zero)
        ((Layout.toRat_eq_significant d).symm.trans value)
      rw [significant] at bare
      have many := (pow_length_le_digitsValue digit nonzero).trans_lt (bare.trans_lt small)
      rw [digits, significant, List.length_cons]
      exact (Nat.pow_lt_pow_iff_right (by decide)).mp many

theorem digits_eq_of_toRat_eq {other : Decimal} (same : d.toRat = other.toRat) :
    d.digits = other.digits :=
  le_antisymm (digits_le_iff.mpr (same ▸ other.hasDigits_digits))
    (digits_le_iff.mpr (same ▸ d.hasDigits_digits))

theorem digits_pos (nonzero : d.toRat ≠ 0) : 0 < d.digits := by
  by_contra none
  obtain ⟨c, e, small, value⟩ := hasDigits_digits d
  rw [Nat.eq_zero_of_not_pos none, pow_zero, Nat.lt_one_iff] at small
  rw [small, Nat.cast_zero, zero_mul] at value
  exact nonzero value

private theorem digits_le_of_coefficient_le (positive : 0 < n) (le : d.coefficient ≤ 10 ^ n) :
    d.digits ≤ n := by
  apply digits_le_iff.mpr
  rcases le.lt_or_eq with less | power
  · exact ⟨_, _, less, rfl⟩
  · -- The power of ten itself has one digit only.
    refine ⟨1, n + d.exponent, Nat.one_lt_pow positive.ne' (by decide), ?_⟩
    rw [toRat, power, zpow_add₀ (by norm_num), zpow_natCast]
    push_cast
    ring

/-! ### Neighbours of a rational -/

private theorem scaled_nonneg (positive : 0 < q) (n : Nat) : 0 ≤ q / 10 ^ lastExponent n q :=
  div_nonneg positive.le (zpow_nonneg (by norm_num) _)

/-- In units of the last digit a rational has so many digits in front of the point. -/
theorem scaled_lt (positive : 0 < q) (some : 0 < n) : q / 10 ^ lastExponent n q < 10 ^ n := by
  have unit : (0 : Rat) < 10 ^ lastExponent n q := zpow_pos (by norm_num) _
  have below : q < (10 : Rat) ^ (order 10 q + 1) := by
    rw [order_eq_log (by norm_num) positive.ne', abs_of_pos positive]
    exact_mod_cast Int.lt_zpow_succ_log_self (by norm_num : 1 < 10) q
  have exponent : order 10 q + 1 = n + lastExponent n q := by
    rw [lastExponent]
    omega
  rw [exponent, zpow_add₀ (by norm_num), zpow_natCast] at below
  rwa [div_lt_iff₀ unit]

theorem digits_le_of_mem_neighbours (positive : 0 < q) (some : 0 < n)
    (member : d ∈ neighbours n q) : d.digits ≤ n := by
  have scaled := scaled_lt positive some
  have nonneg := scaled_nonneg positive n
  have floor : (q / 10 ^ lastExponent n q).floor < ((10 ^ n : Nat) : Int) :=
    Rat.floor_lt_iff.mpr (by exact_mod_cast scaled)
  have rounded : |roundHalfEven (q / 10 ^ lastExponent n q)| ≤ ((10 ^ n : Nat) : Int) := by
    apply abs_roundHalfEven_le
    rw [abs_of_nonneg nonneg]
    exact_mod_cast scaled
  rw [abs_of_nonneg (roundHalfEven_nonneg nonneg)] at rounded
  simp only [neighbours, nearest, List.mem_cons, List.not_mem_nil, or_false] at member
  have power : 0 < 10 ^ n := by positivity
  rcases member with rfl | rfl | rfl
  · exact digits_le_of_coefficient_le some (Int.toNat_le.mpr rounded)
  · exact digits_le_of_coefficient_le some (Int.toNat_le.mpr floor.le)
  · exact digits_le_of_coefficient_le some ((Int.toNat_lt' power).mpr floor)

/-- Between a decimal with so many digits and a rational there is a multiple of the unit of the last
digit. -/
theorem HasDigits.exists_multiple (digits : HasDigits n r) (positive : 0 < q) (some : 0 < n) :
    ∃ m : Nat, m * (10 : Rat) ^ lastExponent n q ∈ Set.uIcc r q := by
  obtain ⟨c, e, small, rfl⟩ := digits
  rcases le_total (lastExponent n q) e with coarse | fine
  · -- A decimal with a larger last digit is a multiple of the unit itself.
    obtain ⟨k, exponent⟩ : ∃ k : Nat, e = k + lastExponent n q :=
      ⟨(e - lastExponent n q).toNat, by omega⟩
    have whole : ((c * 10 ^ k : Nat) : Rat) * 10 ^ lastExponent n q = c * 10 ^ e := by
      rw [exponent, zpow_add₀ (by norm_num), zpow_natCast]
      push_cast
      ring
    exact ⟨c * 10 ^ k, whole ▸ Set.left_mem_uIcc⟩
  · -- With smaller digits the decimal is not above the leading power of the rational.
    have power : ((10 ^ (n - 1) : Nat) : Rat) * 10 ^ lastExponent n q = 10 ^ order 10 q := by
      rw [Nat.cast_pow, Nat.cast_ofNat, ← zpow_natCast, ← zpow_add₀ (by norm_num)]
      congr 1
      rw [lastExponent]
      omega
    rcases fine.eq_or_lt with rfl | less
    · exact ⟨c, Set.left_mem_uIcc⟩
    refine ⟨10 ^ (n - 1), power ▸ Set.mem_uIcc_of_le ?_ (leading_le positive)⟩
    have digits : (c : Rat) ≤ 10 ^ n := by exact_mod_cast small.le
    calc (c : Rat) * 10 ^ e ≤ 10 ^ n * 10 ^ e :=
          mul_le_mul_of_nonneg_right digits (zpow_nonneg (by norm_num) _)
      _ = 10 ^ (n + e) := by rw [zpow_add₀ (by norm_num), zpow_natCast]
      _ ≤ 10 ^ order 10 q := by
        refine zpow_le_zpow_right₀ (by norm_num) ?_
        rw [lastExponent] at less
        omega

/-- Two of the neighbours enclose the rational, one unit apart. -/
private theorem exists_enclosing (positive : 0 < q) (n : Nat) :
    ∃ k : Nat, ⟨k, lastExponent n q⟩ ∈ neighbours n q ∧ ⟨k + 1, lastExponent n q⟩ ∈ neighbours n q ∧
      k * (10 : Rat) ^ lastExponent n q ≤ q ∧ q ≤ (k + 1) * (10 : Rat) ^ lastExponent n q := by
  have unit : (0 : Rat) < 10 ^ lastExponent n q := zpow_pos (by norm_num) _
  have nonneg := scaled_nonneg positive n
  have whole : 0 ≤ (q / 10 ^ lastExponent n q).floor := Rat.le_floor_iff.mpr (by simpa using nonneg)
  have cast : (((q / 10 ^ lastExponent n q).floor.toNat : Nat) : Rat)
      = (q / 10 ^ lastExponent n q).floor := by exact_mod_cast Int.toNat_of_nonneg whole
  refine ⟨(q / 10 ^ lastExponent n q).floor.toNat, by simp [neighbours], by simp [neighbours],
    ?_, ?_⟩
  · rw [cast, ← le_div_iff₀ unit]
    exact Int.floor_le _
  · rw [cast, ← div_le_iff₀ unit]
    exact (Int.lt_floor_add_one _).le

/-- On the side of a decimal with so many digits a neighbour is no farther. -/
theorem HasDigits.exists_neighbour (digits : HasDigits n r) (positive : 0 < q) (some : 0 < n) :
    ∃ d ∈ neighbours n q, d.toRat ∈ Set.uIcc r q := by
  obtain ⟨m, between⟩ := digits.exists_multiple positive some
  obtain ⟨k, lower, upper, below, above⟩ := exists_enclosing positive n
  have unit : (0 : Rat) < 10 ^ lastExponent n q := zpow_pos (by norm_num) _
  rcases Nat.lt_or_ge k m with right | left
  · refine ⟨_, upper, Set.uIcc_subset_uIcc_right between (Set.mem_uIcc_of_ge ?_ ?_)⟩
    · simpa only [toRat, Nat.cast_add, Nat.cast_one] using above
    · exact mul_le_mul_of_nonneg_right (by exact_mod_cast right) unit.le
  · refine ⟨_, lower, Set.uIcc_subset_uIcc_right between (Set.mem_uIcc_of_le ?_ below)⟩
    exact mul_le_mul_of_nonneg_right (by exact_mod_cast left) unit.le

private theorem toRat_nearest (positive : 0 < q) (n : Nat) : (nearest n q).toRat
    = roundHalfEven (q / 10 ^ lastExponent n q) * (10 : Rat) ^ lastExponent n q := by
  have nonneg := scaled_nonneg positive n
  have coefficient : ((roundHalfEven (q / 10 ^ lastExponent n q)).toNat : Rat)
      = roundHalfEven (q / 10 ^ lastExponent n q) := by
    exact_mod_cast Int.toNat_of_nonneg (roundHalfEven_nonneg nonneg)
  simp only [nearest, toRat, coefficient]

/-- No decimal with so many digits is nearer than the nearest one. -/
theorem abs_nearest_sub_le_of_hasDigits (digits : HasDigits n r) (positive : 0 < q)
    (some : 0 < n) : |(nearest n q).toRat - q| ≤ |r - q| := by
  obtain ⟨m, between⟩ := digits.exists_multiple positive some
  have unit : (0 : Rat) < 10 ^ lastExponent n q := zpow_pos (by norm_num) _
  have scaled (k : Int) : |(k : Rat) * 10 ^ lastExponent n q - q|
      = |k - q / 10 ^ lastExponent n q| * 10 ^ lastExponent n q := by
    rw [← abs_of_pos unit, ← abs_mul, abs_of_pos unit, sub_mul, div_mul_cancel₀ _ unit.ne']
  calc |(nearest n q).toRat - q| ≤ |((m : Int) : Rat) * 10 ^ lastExponent n q - q| := by
        rw [toRat_nearest positive, scaled, scaled]
        exact mul_le_mul_of_nonneg_right (abs_roundHalfEven_sub_le_abs_sub _ m) unit.le
    _ ≤ |r - q| := by
        rw [Int.cast_natCast, abs_sub_comm _ q, abs_sub_comm r]
        exact Set.abs_sub_right_of_mem_uIcc between

/-! ### The search for a short decimal -/

variable {readsBack : Rat → Bool} {start attempts : Nat}

/-- If the rationals that read back are an interval around a number, the search finds as few digits
as any decimal that reads back has. -/
theorem digits_shortestFrom_le (connected : {r | readsBack r = true}.OrdConnected)
    (own : readsBack q = true) (positive : 0 < q) (digits : HasDigits n r)
    (reads : readsBack r = true) (some : 0 < start) (before : start ≤ n)
    (tried : n < start + attempts) : (shortestFrom readsBack q start attempts).digits ≤ n := by
  induction attempts generalizing start with
  | zero => omega
  | succ attempts ih =>
    simp only [shortestFrom]
    split
    · next d found =>
      have few := digits_le_of_mem_neighbours positive some (List.mem_of_find?_eq_some found)
      exact few.trans before
    · next missed =>
      rcases before.eq_or_lt with rfl | less
      · -- A neighbour on the side of the other decimal reads back as well.
        obtain ⟨d, member, between⟩ := digits.exists_neighbour positive some
        have back := connected.uIcc_subset reads own between
        exact absurd back (List.find?_eq_none.mp missed d member)
      · exact ih (Nat.succ_pos start) less (by omega)

end Decimal

namespace Format

variable {format : Format} {n : Nat} {q r : Rat}

private theorem ordConnected_nearest (precise : 0 < format.precision) (q : Rat) :
    {r | format.nearest r = q}.OrdConnected := by
  refine ⟨fun low lower high upper r between => le_antisymm ?_ ?_⟩
  · rw [← (upper : format.nearest high = q)]
    exact nearest_mono precise between.2
  · rw [← (lower : format.nearest low = q)]
    exact nearest_mono precise between.1

/-- The decimal of a double-format number has as few digits as any that reads back. -/
theorem digits_shortestDouble_le (positive : 0 < q) (fits : double.ofRat q = .number q)
    (digits : Decimal.HasDigits n r) (reads : double.ofRat r = .number q) (some : 0 < n)
    (few : n < doubleDigits) : (shortestDouble q).digits ≤ n := by
  have connected : {r | decide (double.ofRat r = .number q) = true}.OrdConnected := by
    obtain ⟨-, bounded⟩ := (ofRat_eq_number_iff positive.ne').mp fits
    simp only [decide_eq_true_eq, ofRat_eq_number_iff positive.ne', bounded, and_true]
    exact ordConnected_nearest double_precise q
  rw [shortestDouble, if_neg positive.ne']
  refine Decimal.digits_shortestFrom_le connected (decide_eq_true fits) positive digits
    (decide_eq_true reads) Nat.one_pos some ?_
  rw [doubleDigits] at few ⊢
  omega

end Format

end Calculator
