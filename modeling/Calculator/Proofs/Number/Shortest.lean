import Calculator.Proofs.Number.Significant
import Calculator.Proofs.Number.Symmetry

/-!
# Shortest texts

The digits of a single-format number are searched among the nearest decimals only. Around most
numbers the rationals that are read as the number are symmetric, so that the nearest decimal reads
back whenever any decimal with so many digits does. Below a power of two the format is twice as
fine as above it, and the nearest decimal may miss where a farther one above the power reads back.
This happens for three powers of two, whose texts have nine digits where eight are enough.

## Main results

- `readsAs_nearest_of_hasDigits`: apart from three powers of two, the nearest decimal reads back if
  any decimal with so many digits does.
- `text_is_shortest_iff`: the text of a number has the fewest digits that read back, unless the
  number is one of the three powers of two.

## Proof strategy

If the nearest decimal misses and another one reads back, the unit of the last decimal digit is
about as large as the interval of the rationals that are read as the number. For a power of two
with all digits this leaves seven or eight digits and few powers, which are tried. For a smaller
power the interval has always the same length, and no power of ten is near to it.
-/

namespace Calculator

open Format

variable {q r : Rat} {n : Nat}

/-! ### Neighbours that read back -/

/-- The nearest decimal reads back, or none next to the number does. -/
def NearestSuffices (n : Nat) (q : Rat) : Prop :=
  ReadsAs q (Decimal.nearest n q).toRat ∨ ∀ d ∈ Decimal.neighbours n q, ¬ ReadsAs q d.toRat

instance (n : Nat) (q : Rat) : Decidable (NearestSuffices n q) :=
  inferInstanceAs (Decidable (_ ∨ _))

/-- The unit of the last decimal digit is about as large as the interval of the rationals that are
read as a number. -/
def IsCritical (n : Nat) (q : Rat) : Prop :=
  (2 ^ 23 - 1) * (10 : Rat) ^ Decimal.lastExponent n q ≤ q ∧
    q ≤ (2 ^ 24 + 1) * 10 ^ Decimal.lastExponent n q

instance (n : Nat) (q : Rat) : Decidable (IsCritical n q) :=
  inferInstanceAs (Decidable (_ ∧ _))

/-- What is read as a number with all digits is near to it. -/
private theorem ReadsAs.abs_sub_mul_le (reads : ReadsAs q r)
    (large : (2 : Rat) ^ (-126 : Int) < q) :
    |r - q| * (2 ^ 24 - 2) ≤ q := by
  have held : single.Holds (2 ^ (-126 : Int)) := holds_zpow single_precise (by decide)
  have tiny : (0 : Rat) < 2 ^ (-126 : Int) := zpow_pos (by norm_num) _
  have lower : (2 : Rat) ^ (-126 : Int) ≤ r := by
    by_contra small
    exact large.not_ge (reads.ge_of_ge held (not_le.mp small).le)
  have widened : (2 : Rat) ^ (-126 : Int) ≤ double.nearest r := by
    rw [← nearest_of_holds held.widen]
    exact nearest_mono double_precise lower
  -- Either rounding moves by a small part of what it rounds.
  have first : |double.nearest r - r| * 2 ^ 53 ≤ |r| := by
    refine abs_nearest_sub_mul_le double_precise ?_
    rw [abs_of_nonneg (tiny.le.trans lower)]
    exact (zpow_le_zpow_right₀ (by norm_num) (by decide)).trans lower
  have second : |single.nearest (double.nearest r) - double.nearest r| * 2 ^ 24
      ≤ |double.nearest r| := by
    refine abs_nearest_sub_mul_le single_precise ?_
    rw [abs_of_nonneg (tiny.le.trans widened)]
    exact widened
  rw [abs_of_nonneg (tiny.le.trans lower)] at first
  rw [abs_of_nonneg (tiny.le.trans widened), (reads : single.nearest (double.nearest r) = q)]
    at second
  have total := abs_sub_le r (double.nearest r) q
  rw [abs_sub_comm r (double.nearest r), abs_sub_comm (double.nearest r) q] at total
  have up : double.nearest r - q ≤ |q - double.nearest r| := by
    rw [abs_sub_comm]
    exact le_abs_self _
  linarith [le_abs_self (r - q)]

/-- A neighbour that reads back where the nearest decimal does not is at least half a unit away, and
the nearest decimal at most that far. -/
private theorem exists_of_not_nearestSuffices (positive : 0 < q) (fails : ¬ NearestSuffices n q) :
    ∃ near far, ¬ ReadsAs q near ∧ ReadsAs q far ∧
      |near - q| * 2 ≤ 10 ^ Decimal.lastExponent n q ∧
      10 ^ Decimal.lastExponent n q ≤ |far - q| * 2 := by
  simp only [NearestSuffices, not_or, not_forall, not_not] at fails
  obtain ⟨missed, d, member, reads⟩ := fails
  have unit : (0 : Rat) < 10 ^ Decimal.lastExponent n q := zpow_pos (by norm_num) _
  have moved := Decimal.abs_nearest_sub_le positive n
  have exponent : d.exponent = Decimal.lastExponent n q := by
    simp only [Decimal.neighbours, Decimal.nearest, List.mem_cons, List.not_mem_nil,
      or_false] at member
    rcases member with rfl | rfl | rfl <;> rfl
  have same : (Decimal.nearest n q).exponent = Decimal.lastExponent n q := rfl
  have different : (d.coefficient : Int) - (Decimal.nearest n q).coefficient ≠ 0 := by
    intro equal
    have equal : d.coefficient = (Decimal.nearest n q).coefficient := by omega
    rw [Decimal.toRat, exponent, equal, ← same] at reads
    exact missed reads
  -- Two different multiples of the unit are at least one unit apart.
  have apart : (10 : Rat) ^ Decimal.lastExponent n q
      ≤ |d.toRat - (Decimal.nearest n q).toRat| := by
    have one : (1 : Rat) ≤ |(d.coefficient : Rat) - (Decimal.nearest n q).coefficient| := by
      exact_mod_cast Int.one_le_abs different
    rw [Decimal.toRat, Decimal.toRat, exponent, same, ← sub_mul, abs_mul, abs_of_pos unit]
    exact le_mul_of_one_le_left unit.le one
  have total := abs_sub_le d.toRat q (Decimal.nearest n q).toRat
  rw [abs_sub_comm q] at total
  exact ⟨_, _, missed, reads, by linarith, by linarith⟩

/-- For a number with all digits this happens with critical units only. -/
theorem isCritical_of_not_nearestSuffices (holds : single.Holds q)
    (large : (2 : Rat) ^ (-126 : Int) < q) (fails : ¬ NearestSuffices n q) : IsCritical n q := by
  have positive : 0 < q := lt_trans (zpow_pos (by norm_num) _) large
  obtain ⟨near, far, missed, reads, below, above⟩ := exists_of_not_nearestSuffices positive fails
  have inside := reads.abs_sub_mul_le large
  have outside : q < |near - q| * (2 ^ 25 + 1) := by
    by_contra close
    exact missed (readsAs_of_near holds positive (not_lt.mp close))
  constructor <;> linarith

/-! ### Numbers without all digits -/

/-- Near zero the double format is much finer than the single one. -/
theorem abs_nearest_double_sub_le (small : |r| ≤ 2 ^ (-125 : Int)) :
    |double.nearest r - r| ≤ 2 ^ (-178 : Int) := by
  by_cases zero : r = 0
  · rw [zero, nearest_zero, sub_zero, abs_zero]
    exact zpow_nonneg (by norm_num) _
  have last : double.lastExponent r ≤ -177 := by
    refine lastExponent_le zero (by decide) (small.trans_lt ?_)
    exact zpow_lt_zpow_right₀ (by norm_num) (by decide)
  have unit : (2 : Rat) ^ double.lastExponent r ≤ 2 ^ (-177 : Int) :=
    zpow_le_zpow_right₀ (by norm_num) last
  have half := double.abs_nearest_sub_le_half r
  norm_num at unit ⊢
  linarith

/-- There the single format keeps the multiples of its smallest number. -/
private theorem lastExponent_single_of_small (nonzero : r ≠ 0) (small : |r| < 2 ^ (-125 : Int)) :
    single.lastExponent r = -149 :=
  le_antisymm (lastExponent_le nonzero (by decide) small) (single.leastExponent_le r)

/-- A rational that is read as a number without all digits is at most about half a unit away. -/
private theorem ReadsAs.abs_sub_mul_le_of_small (reads : ReadsAs q r) (positive : 0 < q)
    (small : q ≤ 2 ^ (-126 : Int)) : |r - q| * 2 ≤ 2 ^ (-149 : Int) + 2 ^ (-177 : Int) := by
  have held : single.Holds (2 ^ (-125 : Int)) := holds_zpow single_precise (by decide)
  have bound : q < 2 ^ (-125 : Int) :=
    small.trans_lt (zpow_lt_zpow_right₀ (by norm_num) (by decide))
  have nonzero := reads.nearest_ne_zero positive.ne'
  have nonneg : 0 ≤ r := by
    by_contra negative
    exact positive.not_ge (reads.ge_of_ge single.holds_zero (not_le.mp negative).le)
  have under : r < 2 ^ (-125 : Int) := by
    by_contra beyond
    exact bound.not_ge (reads.le_of_le held (not_lt.mp beyond))
  have below : double.nearest r < 2 ^ (-125 : Int) := by
    by_contra beyond
    have passed := nearest_mono single_precise (not_lt.mp beyond)
    rw [nearest_of_holds held, (reads : single.nearest (double.nearest r) = q)] at passed
    exact bound.not_ge passed
  have near := abs_nearest_double_sub_le ((abs_of_nonneg nonneg).trans_le under.le)
  have half := single.abs_nearest_sub_le_half (double.nearest r)
  rw [(reads : single.nearest (double.nearest r) = q), lastExponent_single_of_small nonzero
    ((abs_of_nonneg (nearest_nonneg nonneg)).trans_lt below)] at half
  have total := abs_sub_le r (double.nearest r) q
  rw [abs_sub_comm r (double.nearest r), abs_sub_comm (double.nearest r) q] at total
  norm_num at near half ⊢
  linarith

/-- What is clearly less than half a unit away is read as such a number. -/
private theorem readsAs_of_near_small (holds : single.Holds q) (positive : 0 < q)
    (small : q ≤ 2 ^ (-126 : Int)) (near : |r - q| * 2 < 2 ^ (-149 : Int) - 2 ^ (-177 : Int)) :
    ReadsAs q r := by
  have least := holds.least_le positive
  have lower := neg_abs_le (r - q)
  have upper := le_abs_self (r - q)
  have bound : |r| ≤ 2 ^ (-125 : Int) := by
    norm_num at small near least ⊢
    rw [abs_le]
    constructor <;> linarith
  have moved := abs_nearest_double_sub_le bound
  have total := abs_sub_le (double.nearest r) r q
  have close : |double.nearest r - q| < 2 ^ (-149 : Int) / 2 := by
    norm_num at near moved ⊢
    linarith
  have inside : 0 < double.nearest r ∧ double.nearest r < 2 ^ (-125 : Int) := by
    rw [abs_lt] at close
    norm_num at close small least ⊢
    constructor <;> linarith
  have last := lastExponent_single_of_small inside.1.ne'
    ((abs_of_pos inside.1).trans_lt inside.2)
  refine nearest_eq_of_near holds ?_ ?_ <;> rw [last]
  · exact single.leastExponent_le q
  · exact close

/-- No power of ten is near to the unit of these numbers. -/
theorem nearestSuffices_of_small (holds : single.Holds q) (positive : 0 < q)
    (small : q ≤ 2 ^ (-126 : Int)) (n : Nat) : NearestSuffices n q := by
  by_contra fails
  obtain ⟨near, far, missed, reads, below, above⟩ := exists_of_not_nearestSuffices positive fails
  have inside := reads.abs_sub_mul_le_of_small positive small
  have outside := not_lt.mp fun close => missed (readsAs_of_near_small holds positive small close)
  have lower : (10 : Rat) ^ (-45 : Int) < 10 ^ Decimal.lastExponent n q := by
    refine lt_of_lt_of_le ?_ (outside.trans below)
    norm_num
  have upper : (10 : Rat) ^ Decimal.lastExponent n q < 10 ^ (-44 : Int) := by
    refine (above.trans inside).trans_lt ?_
    norm_num
  have lower := (zpow_lt_zpow_iff_right₀ (by norm_num : (1 : Rat) < 10)).mp lower
  have upper := (zpow_lt_zpow_iff_right₀ (by norm_num : (1 : Rat) < 10)).mp upper
  omega

/-! ### Powers of two -/

/-- The exponents of the powers of two around which a decimal of eight digits reads back, though not
the nearest one. -/
def longExponents : List Int :=
  [-96, 87, 90]

/-- The powers of two whose texts are longer than necessary. -/
def longPowers : List Rat :=
  longExponents.map fun e => 2 ^ e

/-- For the other powers of two with all digits the nearest decimal suffices. Only numbers of digits
with a critical unit are tried. -/
theorem nearestSuffices_power : ∀ p ∈ List.range 277, 24 ≤ p → (p : Int) - 149 ∉ longExponents →
    ∀ n ∈ [7, 8], IsCritical n (2 ^ ((p : Int) - 149)) →
      NearestSuffices n (2 ^ ((p : Int) - 149)) := by
  decide +kernel

/-- Six digits are not enough for a critical unit. -/
private theorem IsCritical.seven_le (critical : IsCritical n q) (positive : 0 < q) (some : 0 < n) :
    7 ≤ n := by
  by_contra few
  have unit : (0 : Rat) < 10 ^ Decimal.lastExponent n q := zpow_pos (by norm_num) _
  have scaled := Decimal.scaled_lt positive some
  have digits : (10 : Rat) ^ n ≤ 10 ^ 6 := pow_le_pow_right₀ (by norm_num) (by omega)
  have lower := (le_div_iff₀ unit).mpr critical.1
  linarith

private theorem nearestSuffices_of_power {p : Nat} (power : q = 2 ^ ((p : Int) - 149))
    (fits : single.ofRat q = .number q) (short : q ∉ longPowers) (some : 0 < n) (few : n ≤ 8) :
    NearestSuffices n q := by
  have positive : 0 < q := power ▸ zpow_pos (by norm_num) _
  obtain ⟨holds, bounded⟩ := (ofRat_self_iff single_precise positive.ne').mp fits
  -- Near the bottom of the format one argument serves all powers; above it the critical ones, of
  -- which there are finitely many, have been tried.
  by_cases small : p < 24
  · refine nearestSuffices_of_small holds positive ?_ n
    rw [power]
    exact zpow_le_zpow_right₀ (by norm_num) (by omega)
  · by_contra fails
    have large : (2 : Rat) ^ (-126 : Int) < q := by
      rw [power]
      exact zpow_lt_zpow_right₀ (by norm_num) (by omega)
    have critical := isCritical_of_not_nearestSuffices holds large fails
    have many := critical.seven_le positive some
    have bound : p < 277 := by
      have below := bounded.trans_lt single.largest_lt_overflow
      rw [abs_of_pos positive, power] at below
      have below := (zpow_lt_zpow_iff_right₀ (by norm_num : (1 : Rat) < 2)).mp below
      simp only [overflowExponent, single] at below
      omega
    have other : (p : Int) - 149 ∉ longExponents := by
      intro long
      exact short (power ▸ List.mem_map_of_mem long)
    have digits : n ∈ [7, 8] := by
      simp only [List.mem_cons, List.not_mem_nil, or_false]
      omega
    rw [power] at critical fails
    exact fails (nearestSuffices_power p (List.mem_range.mpr bound) (not_lt.mp small) other n digits
      critical)

/-- If a decimal with so many digits reads back, the nearest one does. -/
theorem readsAs_nearest_of_hasDigits (positive : 0 < q) (fits : single.ofRat q = .number q)
    (short : q ∉ longPowers) (some : 0 < n) (few : n ≤ 8) (digits : Decimal.HasDigits n r)
    (reads : ReadsAs q r) : ReadsAs q (Decimal.nearest n q).toRat := by
  have holds := holds_of_ofRat_self single_precise fits
  rcases holds.power_or_inner positive with ⟨p, power⟩ | ⟨k, e, inner⟩
  · obtain ⟨d, member, between⟩ := digits.exists_neighbour positive some
    have neighbour := (ordConnected_readsAs q).uIcc_subset reads (readsAs_self holds) between
    rcases nearestSuffices_of_power power fits short some few with nearest | none
    · exact nearest
    · exact absurd neighbour (none d member)
  · exact inner.readsAs_of_abs_sub_le reads
      (Decimal.abs_nearest_sub_le_of_hasDigits digits positive some)

/-! ### The digits of a text -/

/-- Around each of the three powers a decimal of eight digits reads back, and the text has nine. -/
private theorem exists_shorter : ∀ q ∈ longPowers, ∃ d ∈ [Decimal.mk 12621775 (-36),
    Decimal.mk 15474251 19, Decimal.mk 12379401 20], ReadsAs q d.toRat ∧ d.digits = 8 ∧
      ((Binary.singleDecimal? q).map fun found =>
        (shortestDouble (double.nearest found.toRat)).digits) = some 9 := by
  decide +kernel

/-- The digits of the text are those of the first nearest decimal that reads back, or fewer. -/
theorem digits_shortestDouble_le_of_readsAs (positive : 0 < q) (fits : single.ofRat q = .number q)
    (member : n ∈ Binary.singleDigits) (reads : ReadsAs q (Decimal.nearest n q).toRat) :
    (shortestDouble (double.nearest (Decimal.nearest n q).toRat)).digits ≤ n := by
  have widened := reads.ofRat_double positive.ne' fits
  have range : 0 < n ∧ n < doubleDigits := by
    simp only [Binary.singleDigits, doubleDigits, List.mem_cons, List.not_mem_nil, or_false] at *
    omega
  have again := round_round double_precise (.number (Decimal.nearest n q).toRat)
  simp only [Format.round, widened] at again
  have wide : 0 < double.nearest (Decimal.nearest n q).toRat :=
    (nearest_nonneg (Decimal.toRat_nonneg _)).lt_of_ne' (reads.nearest_ne_zero positive.ne')
  have few : (Decimal.nearest n q).digits ≤ n :=
    Decimal.digits_le_of_mem_neighbours positive range.1 (by simp [Decimal.neighbours])
  exact digits_shortestDouble_le wide again (Decimal.digits_le_iff.mp few) widened range.1 range.2

/-- Unless the number is one of three powers of two, no decimal that is read as it has fewer digits
than the nearest decimal that the search finds. -/
theorem digits_le_of_readsAs (positive : 0 < q) (fits : single.ofRat q = .number q)
    (short : q ∉ longPowers) (member : n ∈ Binary.singleDigits)
    (first : ∀ fewer ∈ Binary.singleDigits, fewer < n →
      ¬ ReadsAs q (Decimal.nearest fewer q).toRat)
    {d : Decimal} (reads : ReadsAs q d.toRat) : n ≤ d.digits := by
  by_contra fewer
  rw [not_le] at fewer
  have nonzero : d.toRat ≠ 0 := by
    intro zero
    rw [zero, ReadsAs, nearest_zero, nearest_zero] at reads
    exact positive.ne reads
  have some := Decimal.digits_pos nonzero
  have few : n ≤ 9 ∧ d.digits ∈ Binary.singleDigits := by
    simp only [Binary.singleDigits, List.mem_cons, List.not_mem_nil, or_false] at *
    omega
  exact first d.digits few.2 fewer (readsAs_nearest_of_hasDigits positive fits short some
    (by omega) d.hasDigits_digits reads)

/-- The text of a number other than zero. -/
private theorem exists_printed (nonzero : q ≠ 0) (fits : single.ofRat q = .number q) :
    ∃ printed, Decimal.read? (Binary.number q).singleText.toList
        = some ((Binary.number q).isNegative, printed) ∧
      Binary.readSigned (Binary.number q).isNegative printed = .number q ∧
      ((∀ negative d, Binary.readSigned negative d = .number q → printed.digits ≤ d.digits) ↔
        |q| ∉ longPowers) := by
  have positive := abs_pos.mpr nonzero
  have magnitude := ofRat_abs single_precise nonzero fits
  obtain ⟨n, member, first, reads, found⟩ := Binary.exists_singleDecimal? positive magnitude
  have back := (Binary.readSigned_eq_number_iff nonzero fits).mpr ⟨rfl, reads⟩
  have text := Binary.singleText_eq_doubleText nonzero fits reads found
  obtain ⟨printed, read, value, again⟩ :=
    Binary.exists_read?_singleText (x := .number q) trivial back text
  have widened : |(double.ofDecimal (Binary.number q).isNegative (Decimal.nearest n |q|)).toRat|
      = double.nearest (Decimal.nearest n |q|).toRat := by
    rw [abs_toRat_ofDecimal double_precise double_ordered,
      ofDecimal_unsigned double_precise double_ordered,
      reads.ofRat_double positive.ne' magnitude, Binary.toRat, abs_of_nonneg]
    exact nearest_nonneg (Decimal.toRat_nonneg _)
  rw [widened] at value
  -- Printing goes through the double format, and the digits are those of the datum there.
  have same := Decimal.digits_eq_of_toRat_eq value
  refine ⟨printed, read, again, ?_⟩
  rw [same]
  constructor
  · intro shortest long
    obtain ⟨d, -, other, eight, nine⟩ := exists_shorter |q| long
    have less := shortest _ d ((Binary.readSigned_eq_number_iff nonzero fits).mpr ⟨rfl, other⟩)
    rw [found, Option.map_some, Option.some.injEq] at nine
    omega
  · intro short negative d other
    have other := ((Binary.readSigned_eq_number_iff nonzero fits).mp other).2
    exact (digits_shortestDouble_le_of_readsAs positive magnitude member reads).trans
      (digits_le_of_readsAs positive magnitude short member first other)

/-- The text of a finite number of the single format is read as a decimal that reads back, and no
decimal with fewer digits reads back unless the number is, up to its sign, one of three powers of
two. -/
theorem text_is_shortest_iff {x : Binary} (fits : single.round x = x) (finite : x.IsFinite) :
    ∃ printed, Decimal.read? x.singleText.toList = some (x.isNegative, printed) ∧
      Binary.readSigned x.isNegative printed = x ∧
      ((∀ negative d, Binary.readSigned negative d = x → printed.digits ≤ d.digits) ↔
        |x.toRat| ∉ longPowers) := by
  have noDigits : (Decimal.mk 0 (-1)).digits = 0 := by decide +kernel
  have short : |(0 : Rat)| ∉ longPowers := by decide +kernel
  have zero (x : Binary) : (∀ negative d, Binary.readSigned negative d = x →
      (Decimal.mk 0 (-1)).digits ≤ d.digits) ↔ |(0 : Rat)| ∉ longPowers := by
    refine iff_of_true (fun negative d _ => ?_) short
    rw [noDigits]
    exact Nat.zero_le _
  cases x with
  | infinity | nan => cases finite
  | negativeZero => exact ⟨_, by decide +kernel, by decide +kernel, zero _⟩
  | number q =>
    by_cases vanishes : q = 0
    · rw [vanishes]
      exact ⟨_, by decide +kernel, by decide +kernel, zero _⟩
    · exact exists_printed vanishes fits

/-- All nine digits of a text can be necessary. -/
theorem nineDigits_are_necessary :
    single.round nineDigits = nineDigits ∧ nineDigits.IsFinite ∧
    nineDigits.singleText = "-1000.00006" ∧
    ∀ negative d, Binary.readSigned negative d = nineDigits → 9 ≤ d.digits := by
  have fits : single.round nineDigits = nineDigits := by decide +kernel
  obtain ⟨printed, read, -, shortest⟩ := text_is_shortest_iff fits trivial
  have short : |nineDigits.toRat| ∉ longPowers := by decide +kernel
  have decimal : Decimal.read? "-1000.00006".toList = some (true, ⟨100000006, -5⟩) := by
    decide +kernel
  have nine : (Decimal.mk 100000006 (-5)).digits = 9 := by decide +kernel
  rw [singleText_nineDigits, decimal, Option.some.injEq, Prod.mk.injEq] at read
  rw [← read.2, nine] at shortest
  exact ⟨fits, trivial, singleText_nineDigits, shortest.mpr short⟩

/-- Two to the ninetieth is written with nine digits, and eight are enough. -/
theorem longPower_has_shorter_decimal :
    single.round (.number (2 ^ 90)) = .number (2 ^ 90) ∧
    (Binary.number (2 ^ 90)).singleText = "1.23794004e+27" ∧
    Decimal.read? "1.23794004e+27".toList = some (false, ⟨123794004, 19⟩) ∧
    (Decimal.mk 123794004 19).digits = 9 ∧
    Decimal.read? "1.2379401e+27".toList = some (false, ⟨12379401, 20⟩) ∧
    Binary.readSigned false ⟨12379401, 20⟩ = .number (2 ^ 90) ∧
    (Decimal.mk 12379401 20).digits = 8 := by
  decide +kernel

end Calculator
