import Calculator.Expr.Reading
import Calculator.Proofs.Number.DoubleRounding
import Calculator.Proofs.Number.Notation
import Calculator.Proofs.Statement.RoundTrip
import Mathlib.Order.Interval.Set.OrdConnected

/-!
# Texts of single-format data

The text of a single-format datum is read in the double format and rounded to the single one. The
rationals that are read as a given number are an interval around it, and decimals with nine digits
lie inside of it. The search for the digits of a text therefore always ends, and the text is read
as the datum that was written.

## Main results

- `ordConnected_readsAs`: the rationals that are read as a number are an interval.
- `readsAs_nearest_nine`: nine digits suffice.
- `single_text_reads_back`: the search succeeds, and the text is read as the datum.
-/

namespace Calculator

open Format

/-! ### Rationals that are read as a number -/

/-- Through the double format the rational is rounded to a number of the single format. -/
def ReadsAs (q r : Rat) : Prop :=
  single.nearest (double.nearest r) = q

instance (q r : Rat) : Decidable (ReadsAs q r) :=
  inferInstanceAs (Decidable (_ = _))

variable {q r : Rat} {d : Decimal}

theorem readsAs_self (holds : single.Holds q) : ReadsAs q q := by
  rw [ReadsAs, nearest_of_holds holds.widen, nearest_of_holds holds]

/-- Two roundings keep the order as one does. -/
private theorem nearest_nearest_mono {low high : Rat} (le : low ≤ high) :
    single.nearest (double.nearest low) ≤ single.nearest (double.nearest high) :=
  nearest_mono single_precise (nearest_mono double_precise le)

/-- A rational is not read as a number on the other side of a number of the single format. -/
theorem ReadsAs.le_of_le (reads : ReadsAs q r) {bound : Rat} (holds : single.Holds bound)
    (le : bound ≤ r) : bound ≤ q := by
  have passed := nearest_nearest_mono le
  rwa [readsAs_self holds, reads] at passed

theorem ReadsAs.ge_of_ge (reads : ReadsAs q r) {bound : Rat} (holds : single.Holds bound)
    (ge : r ≤ bound) : q ≤ bound := by
  have passed := nearest_nearest_mono ge
  rwa [readsAs_self holds, reads] at passed

/-- The rationals that are read as a number are an interval. -/
theorem ordConnected_readsAs (q : Rat) : {r | ReadsAs q r}.OrdConnected := by
  refine ⟨fun low lower high upper r between => ?_⟩
  have first := nearest_nearest_mono between.1
  have second := nearest_nearest_mono between.2
  rw [lower] at first
  rw [upper] at second
  exact second.antisymm first

theorem ReadsAs.nearest_ne_zero (nonzero : q ≠ 0) (reads : ReadsAs q r) :
    double.nearest r ≠ 0 := by
  intro vanishes
  rw [ReadsAs, vanishes, nearest_zero] at reads
  exact nonzero reads.symm

/-- What is read as a number is in the range of the double format. -/
theorem ReadsAs.ofRat_double (nonzero : q ≠ 0) (fits : single.ofRat q = .number q)
    (reads : ReadsAs q r) : double.ofRat r = .number (double.nearest r) := by
  refine (ofRat_eq_number_iff (reads.nearest_ne_zero nonzero)).mpr ⟨rfl, ?_⟩
  by_contra beyond
  have huge : (2 : Rat) ^ single.overflowExponent ≤ |double.nearest r| :=
    double_refines_single.overflow_le_largest.trans (not_le.mp beyond).le
  have held : single.Holds (2 ^ single.overflowExponent) := holds_zpow single_precise (by decide)
  have reached := le_abs_nearest_of_holds single_precise held huge
  have bounded := ((ofRat_self_iff single_precise nonzero).mp fits).2
  rw [ReadsAs] at reads
  rw [reads] at reached
  exact (bounded.trans_lt single.largest_lt_overflow).not_ge reached

private theorem Binary.readSingle_eq_number_iff (nonzero : q ≠ 0)
    (fits : single.ofRat q = .number q) :
    readSingle d = .number q ↔ ReadsAs q d.toRat := by
  constructor
  · intro reads
    rw [readSingle] at reads
    cases widened : double.ofRat d.toRat with
    | negativeZero | infinity | nan =>
      rw [widened] at reads
      cases reads
    | number v =>
      rw [widened, Format.round] at reads
      have other : v ≠ 0 := by
        rintro rfl
        rw [ofRat_zero] at reads
        cases reads
        exact nonzero rfl
      rw [ReadsAs, ((ofRat_eq_number_iff other).mp widened).1]
      exact ((ofRat_eq_number_iff nonzero).mp reads).1
  · intro reads
    have bounded := ((ofRat_self_iff single_precise nonzero).mp fits).2
    rw [readSingle, reads.ofRat_double nonzero fits, Format.round]
    exact (ofRat_eq_number_iff nonzero).mpr ⟨reads, bounded⟩

/-! ### Nine digits -/

/-- The least number of the single format is far above the least one of the double format. -/
theorem Format.Holds.least_le (holds : single.Holds q) (positive : 0 < q) :
    (2 : Rat) ^ (-149 : Int) ≤ q := by
  obtain ⟨n, e, rfl, -, least⟩ := holds
  have unit : (0 : Rat) < 2 ^ e := zpow_pos (by norm_num) _
  have digits : (1 : Int) ≤ n := by
    have digits := pos_of_mul_pos_left positive unit.le
    exact_mod_cast digits
  have digits : (1 : Rat) ≤ n := by exact_mod_cast digits
  calc (2 : Rat) ^ (-149 : Int) ≤ 1 * 2 ^ e := by
        rw [one_mul]
        exact zpow_le_zpow_right₀ (by norm_num) least
    _ ≤ n * 2 ^ e := mul_le_mul_of_nonneg_right digits unit.le

/-- A rational is read as a number if it is nearer than a quarter of the last of all digits. This is
half the distance to the next number below a power of two. -/
theorem readsAs_of_near (holds : single.Holds q) (positive : 0 < q)
    (near : |r - q| * (2 ^ 25 + 1) ≤ q) : ReadsAs q r := by
  have least := holds.least_le positive
  have distance := abs_sub_comm r q ▸ near
  have lower : q / 2 ≤ r := by linarith [le_abs_self (q - r)]
  have upper : r ≤ q + |r - q| := by linarith [le_abs_self (r - q)]
  have normal : (2 : Rat) ^ (double.leastExponent + (double.precision - 1 : Nat)) ≤ |r| := by
    rw [abs_of_nonneg (by linarith)]
    calc (2 : Rat) ^ (double.leastExponent + (double.precision - 1 : Nat))
        ≤ 2 ^ (-149 - 1 : Int) := zpow_le_zpow_right₀ (by norm_num) (by decide)
      _ = 2 ^ (-149 : Int) / 2 := by rw [zpow_sub₀ (by norm_num), zpow_one]
      _ ≤ q / 2 := div_le_div_of_nonneg_right least (by norm_num)
      _ ≤ r := lower
  -- The first rounding moves by less than what is left to a quarter of the last digit.
  have moved : |double.nearest r - r| * 2 ^ 53 ≤ |r| := abs_nearest_sub_mul_le double_precise normal
  have total := abs_sub_le (double.nearest r) r q
  rw [abs_of_nonneg (by linarith : 0 ≤ r)] at moved
  apply nearest_eq_of_relative holds positive single_precise
  have bound : |double.nearest r - q| * 2 ^ 25 < q := by linarith
  exact bound

/-- A decimal of nine digits is near enough. -/
theorem readsAs_nearest_nine (holds : single.Holds q) (positive : 0 < q) :
    ReadsAs q (Decimal.nearest 9 q).toRat := by
  apply readsAs_of_near holds positive
  have moved := Decimal.abs_nearest_sub_le positive 9
  have leading := Decimal.leading_le positive
  rw [Decimal.lastExponent, zpow_sub₀ (by norm_num), zpow_natCast] at moved
  norm_num at moved ⊢
  linarith

/-! ### Signs -/

namespace Format

variable {format : Format}

/-- A sign passes through the rounding of a decimal, also that of zero. -/
theorem ofDecimal_true (precise : 0 < format.precision)
    (ordered : format.leastExponent ≤ format.greatestExponent) (d : Decimal) :
    format.ofDecimal true d = (format.ofDecimal false d).negate := by
  by_cases zero : d.coefficient = 0
  · simp [ofDecimal, zero, Binary.zero, Binary.negate]
  · rw [ofDecimal_unsigned precise ordered, ofDecimal_eq_ofRat precise ordered zero, if_pos rfl,
      ofRat_neg format (Decimal.toRat_pos zero).ne']

theorem abs_toRat_ofDecimal (precise : 0 < format.precision)
    (ordered : format.leastExponent ≤ format.greatestExponent) (negative : Bool) (d : Decimal) :
    |(format.ofDecimal negative d).toRat| = |(format.ofDecimal false d).toRat| := by
  cases negative with
  | false => rfl
  | true =>
    rw [ofDecimal_true precise ordered]
    cases format.ofDecimal false d with
    | number v => by_cases zero : v = 0 <;> simp [Binary.negate, Binary.toRat, zero]
    | negativeZero | infinity | nan => simp [Binary.negate, Binary.toRat]

theorem isNegative_ofRat (format : Format) (q : Rat) :
    (format.ofRat q).isNegative = decide (q < 0) := by
  simp only [ofRat]
  split_ifs with beyond vanishes
  · rfl
  · cases decide (q < 0) <;> rfl
  · exact decide_eq_decide.mpr (nearest_lt_zero_iff vanishes)

theorem isNegative_ofDecimal (precise : 0 < format.precision)
    (ordered : format.leastExponent ≤ format.greatestExponent) (negative : Bool) (d : Decimal) :
    (format.ofDecimal negative d).isNegative = negative := by
  by_cases zero : d.coefficient = 0
  · cases negative <;> simp [ofDecimal, zero, Binary.zero, Binary.isNegative]
  · have positive := Decimal.toRat_pos zero
    rw [ofDecimal_eq_ofRat precise ordered zero, isNegative_ofRat]
    cases negative <;> simp [positive, positive.le]

private theorem round_ofDecimal (precise : 0 < format.precision) (negative : Bool) (d : Decimal) :
    format.round (format.ofDecimal negative d) = format.ofDecimal negative d := by
  simp only [ofDecimal]
  split_ifs
  · exact format.round_zero negative
  · rfl
  · exact format.round_zero negative
  · exact round_round precise (.number _)
  · exact round_round precise (.number _)

end Format

namespace Binary

def readSigned (negative : Bool) (d : Decimal) : Binary :=
  single.round (double.ofDecimal negative d)

private theorem readSigned_false (d : Decimal) : readSigned false d = readSingle d := by
  rw [readSigned, readSingle, ofDecimal_unsigned double_precise double_ordered]

private theorem readSigned_true (d : Decimal) : readSigned true d = (readSingle d).negate := by
  rw [readSigned, ofDecimal_true double_precise double_ordered, Format.round_negate]
  exact congrArg negate (readSigned_false d)

/-- A decimal is read as a number if its sign is that of the number and its magnitude is read as
that of the number. -/
theorem readSigned_eq_number_iff {negative : Bool} (nonzero : q ≠ 0)
    (fits : single.ofRat q = .number q) :
    readSigned negative d = .number q ↔ negative = decide (q < 0) ∧ ReadsAs |q| d.toRat := by
  -- Without its sign a decimal is read as no negative number.
  have nonneg : 0 ≤ single.nearest (double.nearest d.toRat) :=
    nearest_nonneg (nearest_nonneg (Decimal.toRat_nonneg _))
  have opposite : single.ofRat (-q) = .number (-q) := by
    rw [ofRat_neg single nonzero, fits, negate, if_neg nonzero]
  cases negative with
  | false =>
    rw [readSigned_false, readSingle_eq_number_iff nonzero fits]
    rcases lt_or_gt_of_ne nonzero with less | positive
    · simp only [less, decide_true, Bool.false_eq_true, false_and, iff_false]
      intro reads
      rw [ReadsAs] at reads
      linarith
    · simp [positive.le, abs_of_pos positive]
  | true =>
    have sign : readSigned true d = .number q ↔ readSingle d = .number (-q) := by
      rw [readSigned_true]
      constructor
      · intro reads
        rw [← negate_negate (readSingle d), reads, negate, if_neg nonzero]
      · intro reads
        rw [reads, negate, if_neg (neg_ne_zero.mpr nonzero), neg_neg]
    rw [sign, readSingle_eq_number_iff (neg_ne_zero.mpr nonzero) opposite]
    rcases lt_or_gt_of_ne nonzero with less | positive
    · simp [less, abs_of_neg less]
    · simp only [positive.le, not_lt.mpr, decide_false, Bool.true_eq_false, false_and, iff_false]
      intro reads
      rw [ReadsAs] at reads
      linarith

/-! ### The search for the digits -/

/-- The search ends at the first number of digits at which the nearest decimal reads back. -/
theorem exists_singleDecimal? (positive : 0 < q) (fits : single.ofRat q = .number q) :
    ∃ digits ∈ singleDigits,
      (∀ fewer ∈ singleDigits, fewer < digits → ¬ ReadsAs q (Decimal.nearest fewer q).toRat) ∧
      ReadsAs q (Decimal.nearest digits q).toRat ∧
      singleDecimal? q = some (Decimal.nearest digits q) := by
  have holds := holds_of_ofRat_self single_precise fits
  have reads (digits : Nat) := readSingle_eq_number_iff (d := Decimal.nearest digits q)
    positive.ne' fits
  have search : singleDecimal? q
      = (singleDigits.find? fun digits => readSingle (Decimal.nearest digits q) = .number q).map
          fun digits => Decimal.nearest digits q := List.find?_map
  cases found : singleDigits.find?
      fun digits => readSingle (Decimal.nearest digits q) = .number q with
  | none =>
    have missed := List.find?_eq_none.mp found 9 (by decide)
    rw [decide_eq_true_eq, reads] at missed
    exact absurd (readsAs_nearest_nine holds positive) missed
  | some digits =>
    obtain ⟨back, before, after, split, missed⟩ := List.find?_eq_some_iff_append.mp found
    rw [decide_eq_true_eq, reads] at back
    rw [found] at search
    refine ⟨digits, List.mem_of_find?_eq_some found, ?_, back, search⟩
    intro fewer member less
    -- The numbers of digits ascend, so that the smaller ones were tried before.
    have ascending : singleDigits.Pairwise (· < ·) := by decide
    rw [split, List.pairwise_append, List.pairwise_cons] at ascending
    rw [split, List.mem_append, List.mem_cons] at member
    rcases member with tried | rfl | later
    · have failed := missed fewer tried
      rw [Bool.not_eq_true', decide_eq_false_iff_not, reads] at failed
      exact failed
    · exact absurd less (lt_irrefl _)
    · exact absurd less (ascending.2.1.1 fewer later).not_gt

private theorem toList_write {x : Binary} (finite : x.IsFinite) (infinityWord : String)
    (magnitude : Rat → List Char) :
    (x.write infinityWord magnitude).toList
      = (if x.isNegative then ['-'] else []) ++ magnitude |x.toRat| := by
  cases x with
  | infinity | nan => cases finite
  | negativeZero => simp [write, isNegative, toRat]
  | number q =>
    simp only [write, isNegative, toRat, rat_abs_eq_abs, decide_eq_true_eq]
    split_ifs <;> simp

/-- The text of a number is that of the double-format number that the decimal found is read as. -/
theorem singleText_eq_doubleText {digits : Nat} (nonzero : q ≠ 0)
    (fits : single.ofRat q = .number q) (reads : ReadsAs |q| (Decimal.nearest digits |q|).toRat)
    (found : singleDecimal? |q| = some (Decimal.nearest digits |q|)) :
    (number q).singleText
      = (double.ofDecimal (q < 0) (Decimal.nearest digits |q|)).doubleText := by
  have positive := abs_pos.mpr nonzero
  have widened := reads.ofRat_double positive.ne' (ofRat_abs single_precise nonzero fits)
  have vanishes := reads.nearest_ne_zero positive.ne'
  have nonneg : 0 ≤ double.nearest (Decimal.nearest digits |q|).toRat :=
    nearest_nonneg (Decimal.toRat_nonneg _)
  have magnitude : singleMagnitude |q|
      = doubleMagnitude (double.nearest (Decimal.nearest digits |q|).toRat) := by
    rw [singleMagnitude, if_neg positive.ne', found, Option.map_some, widened]
  have unsigned : double.ofDecimal false (Decimal.nearest digits |q|)
      = .number (double.nearest (Decimal.nearest digits |q|).toRat) := by
    rw [ofDecimal_unsigned double_precise double_ordered, widened]
  generalize double.nearest (Decimal.nearest digits |q|).toRat = r at *
  -- Both texts are a sign and the same magnitude; rounding has kept the sign.
  apply String.toList_inj.mp
  rw [singleText, toList_write (x := .number q) trivial, toRat, magnitude]
  by_cases negative : q < 0
  · rw [decide_eq_true negative, ofDecimal_true double_precise double_ordered, unsigned, negate,
      if_neg vanishes, doubleText, toList_write (x := .number (-r)) trivial, toRat, abs_neg,
      abs_of_nonneg nonneg]
    simp [isNegative, negative, nonneg.lt_of_ne' vanishes]
  · rw [decide_eq_false negative, unsigned, doubleText, toList_write (x := .number r) trivial,
      toRat, abs_of_nonneg nonneg]
    simp [isNegative, negative, not_lt.mpr nonneg]

/-! ### Reading a text -/

private theorem eq_signed {x : Binary} (finite : x.IsFinite) :
    x = if x.isNegative then (number |x.toRat|).negate else number |x.toRat| := by
  cases x with
  | infinity | nan => cases finite
  | negativeZero => simp [isNegative, toRat, negate]
  | number q =>
    simp only [isNegative, toRat, decide_eq_true_eq]
    split_ifs with negative
    · rw [negate, if_neg (abs_ne_zero.mpr negative.ne), abs_of_neg negative, neg_neg]
    · rw [abs_of_nonneg (not_lt.mp negative)]

end Binary

private theorem Decimal.read?_minus {first : Char} {rest : List Char}
    (digit : Token.isDigit first = true) (read : read? (first :: rest) = some (false, d)) :
    read? ('-' :: first :: rest) = some (true, d) := by
  simp only [read?, readSign_digit digit] at read
  simp only [read?, readSign]
  split at read
  · cases read
  · next nonempty =>
    rw [if_neg nonempty]
    simpa using read

namespace Binary

/-- The text of a double-format number is read as its decimal, which reads back as the number. -/
theorem exists_read?_doubleText {x : Binary} (fits : double.round x = x) (finite : x.IsFinite) :
    ∃ d, Decimal.read? x.doubleText.toList = some (x.isNegative, d) ∧
      d.toRat = (shortestDouble |x.toRat|).toRat ∧ double.ofDecimal x.isNegative d = x := by
  have magnitude : double.ofRat |x.toRat| = .number |x.toRat| := by
    cases x with
    | infinity | nan => cases finite
    | negativeZero => simp [toRat, ofRat_zero]
    | number q =>
      by_cases zero : q = 0
      · simp [toRat, zero, ofRat_zero]
      · exact ofRat_abs double_precise zero fits
  obtain ⟨first, rest, d, text, digit, read, value, back⟩ :=
    exists_read?_doubleMagnitude (abs_nonneg _) magnitude
  refine ⟨d, ?_, value, ?_⟩
  · rw [doubleText, toList_write finite, text]
    cases x.isNegative
    · exact read
    · exact Decimal.read?_minus digit read
  · have whole := eq_signed finite
    cases sign : x.isNegative
    · rw [sign, if_neg Bool.false_ne_true] at whole
      rw [back, ← whole]
    · rw [sign, if_pos rfl] at whole
      rw [ofDecimal_true double_precise double_ordered, back, ← whole]

/-- The text of a decimal that reads back is read as a decimal that reads back. -/
theorem exists_read?_singleText {x : Binary} (finite : x.IsFinite)
    (reads : readSigned x.isNegative d = x)
    (text : x.singleText = (double.ofDecimal x.isNegative d).doubleText) :
    ∃ printed, Decimal.read? x.singleText.toList = some (x.isNegative, printed) ∧
      printed.toRat = (shortestDouble |(double.ofDecimal x.isNegative d).toRat|).toRat ∧
      readSigned x.isNegative printed = x := by
  have fits := round_ofDecimal double_precise x.isNegative d
  have sign := isNegative_ofDecimal double_precise double_ordered x.isNegative d
  rw [readSigned] at reads
  have widened : (double.ofDecimal x.isNegative d).IsFinite := by
    cases wide : double.ofDecimal x.isNegative d with
    | number | negativeZero => trivial
    | infinity | nan =>
      -- Rounding leaves it as it is, and the number read is finite.
      rw [wide, Format.round] at reads
      · rw [← reads] at finite
        exact finite
      all_goals simp
  obtain ⟨printed, read, value, back⟩ := exists_read?_doubleText fits widened
  rw [sign, ← text] at read
  rw [sign] at back
  refine ⟨printed, read, value, ?_⟩
  rw [readSigned, back, reads]

/-- A decimal of one digit to nine reads back, and the text is that of the double-format number that
the decimal is read as. -/
theorem exists_singleText {x : Binary} (fits : single.round x = x) (finite : x.IsFinite) :
    ∃ digits ∈ singleDigits,
      readSigned x.isNegative (Decimal.nearest digits |x.toRat|) = x ∧
      singleDecimal? |x.toRat| = some (Decimal.nearest digits |x.toRat|) ∧
      x.singleText
        = (double.ofDecimal x.isNegative (Decimal.nearest digits |x.toRat|)).doubleText := by
  cases x with
  | infinity | nan => cases finite
  | negativeZero => exact ⟨1, by decide, by decide +kernel, by decide +kernel, by decide +kernel⟩
  | number q =>
    by_cases zero : q = 0
    · rw [zero]
      exact ⟨1, by decide, by decide +kernel, by decide +kernel, by decide +kernel⟩
    · obtain ⟨digits, member, -, reads, found⟩ :=
        exists_singleDecimal? (abs_pos.mpr zero) (ofRat_abs single_precise zero fits)
      exact ⟨digits, member, (readSigned_eq_number_iff zero fits).mpr ⟨rfl, reads⟩, found,
        singleText_eq_doubleText zero fits reads found⟩

end Binary

/-- The search for the digits of a finite number of the single format succeeds, with one digit to
nine, and the text is read as the number, the sign of zero included. -/
theorem single_text_reads_back {x : Binary} (fits : single.round x = x) (finite : x.IsFinite) :
    (∃ digits ∈ Binary.singleDigits,
      Binary.readSigned x.isNegative (Decimal.nearest digits |x.toRat|) = x ∧
      Binary.singleDecimal? |x.toRat| = some (Decimal.nearest digits |x.toRat|) ∧
      x.singleText
        = (double.ofDecimal x.isNegative (Decimal.nearest digits |x.toRat|)).doubleText) ∧
    Token.real? ⟨.real, x.singleText, 1⟩ = some x := by
  obtain ⟨digits, member, reads, found, text⟩ := Binary.exists_singleText fits finite
  refine ⟨⟨digits, member, reads, found, text⟩, ?_⟩
  obtain ⟨printed, read, -, back⟩ := Binary.exists_read?_singleText finite reads text
  rw [Token.real?, read, Option.map_some]
  exact congrArg some back

/-- The negative number with the least magnitude, and negative zero. -/
theorem least_texts_read_back :
    (single.round (.number (-(1 / 2 ^ 149))) = .number (-(1 / 2 ^ 149)) ∧
      Binary.IsFinite (.number (-(1 / 2 ^ 149))) ∧
      Token.real? ⟨.real, "-1e-45", 1⟩ = some (.number (-(1 / 2 ^ 149)))) ∧
    single.round .negativeZero = .negativeZero ∧ Binary.negativeZero.IsFinite ∧
      Token.real? ⟨.real, "-0.0", 1⟩ = some .negativeZero := by
  have fits : single.round (.number (-(1 / 2 ^ 149))) = .number (-(1 / 2 ^ 149)) := by
    decide +kernel
  have least : Binary.singleText (.number (-(1 / 2 ^ 149))) = "-1e-45" := by decide +kernel
  have zero : Binary.singleText .negativeZero = "-0.0" := by decide +kernel
  refine ⟨⟨fits, trivial, ?_⟩, rfl, trivial, ?_⟩
  · rw [← least]
    exact (single_text_reads_back fits trivial).2
  · rw [← zero]
    exact (single_text_reads_back (x := .negativeZero) rfl trivial).2

end Calculator
