import Calculator.Proofs.Number.Numeral

/-!
# The notation of data

The text of a decimal is a numeral, whether the point stands among its digits or behind the
leading one with a power of ten, and reading it gives the value of the decimal. The text of a
datum of the double format is therefore read as the datum, its sign included.

## Main results

- `Layout.exists_read?_write`: what is written for a decimal is read as its value.
- `Binary.readDouble?_doubleText`: the text of a datum of the double format is read as it.
-/

namespace Calculator

open Token

/-! ### Leading digits -/

theorem exists_toDigits_eq_cons {n : Nat} (nonzero : n ≠ 0) :
    ∃ first rest, Nat.toDigits 10 n = first :: rest ∧ first ≠ '0' := by
  induction n using Nat.strongRecOn with
  | ind n ih =>
    rcases Nat.lt_or_ge n 10 with small | large
    · refine ⟨n.digitChar, [], Nat.toDigits_of_lt_base small, ?_⟩
      rw [Ne, Nat.digitChar_eq_zero]
      exact nonzero
    · obtain ⟨first, rest, digits, leading⟩ := ih (n / 10) (by omega) (by omega)
      refine ⟨first, rest ++ [(n % 10).digitChar], ?_, leading⟩
      rw [Nat.toDigits_of_base_le (by decide) large, digits, List.cons_append]

/-- The zeros at the end of a coefficient are not all of it. -/
theorem Layout.exists_significantDigits_eq_cons {n : Nat} (nonzero : n ≠ 0) :
    ∃ first rest, significantDigits n = first :: rest ∧ isDigit first = true ∧ first ≠ '0' ∧
      ∀ c ∈ rest, isDigit c = true := by
  obtain ⟨first, rest, digits, leading⟩ := exists_toDigits_eq_cons nonzero
  obtain ⟨zeros, split⟩ := exists_toDigits_eq n
  rw [digits] at split
  cases significant : significantDigits n with
  | nil =>
    rw [significant, List.nil_append] at split
    have member : first ∈ List.replicate zeros '0' := by
      rw [← split]
      exact List.mem_cons_self
    exact absurd (List.eq_of_mem_replicate member) leading
  | cons head tail =>
    rw [significant, List.cons_append, List.cons.injEq] at split
    obtain ⟨rfl, -⟩ := split
    have run (c : Char) (member : c ∈ first :: tail) : isDigit c = true := by
      rw [← significant] at member
      exact isDigit_of_mem_significantDigits member
    exact ⟨first, tail, rfl, run first List.mem_cons_self, leading,
      fun c member => run c (List.mem_cons_of_mem first member)⟩

/-! ### Numerals with an exponent -/

namespace Decimal

theorem isDigit_of_mem_leftpad {width n : Nat} {c : Char}
    (member : c ∈ (Nat.toDigits 10 n).leftpad width '0') : isDigit c = true := by
  rcases List.mem_append.mp member with padding | digit
  · rw [List.eq_of_mem_replicate padding]
    decide
  · exact isDigit_of_mem_toDigits digit

private theorem digitsValue_leftpad (width n : Nat) :
    digitsValue ((Nat.toDigits 10 n).leftpad width '0') = n := by
  rw [List.leftpad, digitsValue_zeros_append, digitsValue_toDigits]

/-- The exponent behind its mark and its sign. -/
private theorem readExponent_written (width : Nat) (exponent : Int) :
    readExponent ('e' :: (if exponent < 0 then '-' else '+') ::
      (Nat.toDigits 10 exponent.natAbs).leftpad width '0') = some exponent := by
  have nonempty : (Nat.toDigits 10 exponent.natAbs).leftpad width '0' ≠ [] := by
    simp [List.leftpad]
  have run : ((Nat.toDigits 10 exponent.natAbs).leftpad width '0').all isDigit = true :=
    List.all_eq_true.mpr fun _ => isDigit_of_mem_leftpad
  have value := digitsValue_leftpad width exponent.natAbs
  generalize (Nat.toDigits 10 exponent.natAbs).leftpad width '0' = digits at *
  split_ifs with negative
  · simp [readExponent, readSign, nonempty, run, value, abs_of_neg negative]
  · simp [readExponent, readSign, nonempty, run, value, abs_of_nonneg (not_lt.mp negative)]

/-- One digit, a fraction that may be missing, and an exponent. -/
theorem read?_scientific {first : Char} {fraction : List Char} (digit : isDigit first = true)
    (digits : ∀ c ∈ fraction, isDigit c = true) (width : Nat) (exponent : Int) :
    read? (first :: ((if fraction = [] then [] else '.' :: fraction) ++
        'e' :: (if exponent < 0 then '-' else '+') ::
          (Nat.toDigits 10 exponent.natAbs).leftpad width '0'))
      = some (false, ⟨digitsValue (first :: fraction), exponent - fraction.length⟩) := by
  have ending := readExponent_written width exponent
  have mark : isDigit 'e' = false := by decide
  have point : isDigit '.' = false := by decide
  generalize (if exponent < 0 then '-' else '+') ::
      (Nat.toDigits 10 exponent.natAbs).leftpad width '0' = tail at *
  have unsigned (s : List Char) : readSign (first :: s) = (false, first :: s) :=
    readSign_digit digit
  by_cases whole : fraction = []
  · simp [read?, whole, unsigned, digit, mark, readFraction, ending]
  · have taken : (fraction ++ 'e' :: tail).takeWhile isDigit = fraction := by
      rw [List.takeWhile_append_of_pos digits]
      simp [mark]
    have dropped : (fraction ++ 'e' :: tail).dropWhile isDigit = 'e' :: tail := by
      rw [List.dropWhile_append_of_pos digits]
      simp [mark]
    simp [read?, whole, unsigned, digit, point, readFraction, taken, dropped, ending]

end Decimal

namespace Layout

/-- The text of a decimal is read as a decimal of the same value. -/
theorem exists_read?_write (layout : Layout) {d : Decimal} (nonzero : d.coefficient ≠ 0) :
    ∃ first rest read, layout.write d = first :: rest ∧ isDigit first = true ∧
      Decimal.read? (first :: rest) = some (false, read) ∧ read.toRat = d.toRat := by
  obtain ⟨first, rest, digits, digit, -, run⟩ := exists_significantDigits_eq_cons nonzero
  -- Near one the point stands among the digits; elsewhere there is an exponent.
  by_cases near : layout.leastPositional ≤ leadingExponent d ∧
      leadingExponent d ≤ layout.greatestPositional
  · have all (c : Char) (member : c ∈ significantDigits d.coefficient) :=
      isDigit_of_mem_significantDigits member
    obtain ⟨whole, fraction, text, nonempty, wholeDigits, fractionDigits, value⟩ :=
      exists_positional_eq _ all (leadingExponent d)
    have read := Decimal.read?_of_point nonempty wholeDigits fractionDigits
    obtain ⟨c, others, rfl⟩ := List.exists_cons_of_ne_nil nonempty
    refine ⟨c, others ++ '.' :: fraction, _, ?_, wholeDigits c List.mem_cons_self, read, ?_⟩
    · rw [write, if_pos near, text, List.cons_append]
    · rw [toRat_eq_significant d, ← value, Decimal.toRat]
  · refine ⟨first, _, _, ?_, digit, Decimal.read?_scientific digit run layout.exponentDigits
      (leadingExponent d), ?_⟩
    · rw [write, if_neg near, scientific, digits]
      rfl
    · rw [toRat_eq_significant d, digits, Decimal.toRat, List.length_cons]
      congr 2
      push_cast
      ring

end Layout

/-! ### The characters of a text -/

namespace Layout

variable {digits : List Char} {c : Char}

private theorem mem_positional (run : ∀ d ∈ digits, isDigit d = true) {leading : Int}
    (member : c ∈ positional leading digits) : isDigit c = true ∨ c = '.' := by
  have zero : isDigit '0' = true := by decide
  unfold positional at member
  split at member
  · simp only [List.mem_cons, List.mem_append, List.mem_replicate] at member
    grind
  · simp only [List.rightpad, List.mem_cons, List.mem_append, List.mem_replicate] at member
    grind [List.mem_of_mem_take, List.mem_of_mem_drop]

private theorem mem_scientific (run : ∀ d ∈ digits, isDigit d = true) {width : Nat} {leading : Int}
    (member : c ∈ scientific width leading digits) :
    isDigit c = true ∨ c ∈ ['.', 'e', '-', '+'] := by
  simp only [scientific, List.mem_cons, List.mem_append] at member
  grind [List.mem_of_mem_take, List.mem_of_mem_drop, Decimal.isDigit_of_mem_leftpad]

/-- Only digits, the point, the mark of an exponent and its sign stand in the text of a decimal. -/
theorem mem_write {layout : Layout} {d : Decimal} (member : c ∈ layout.write d) :
    isDigit c = true ∨ c ∈ ['.', 'e', '-', '+'] := by
  have run : ∀ c ∈ significantDigits d.coefficient, isDigit c = true :=
    fun _ => isDigit_of_mem_significantDigits
  simp only [write] at member
  split at member
  · rcases mem_positional run member with digit | rfl
    · exact .inl digit
    · exact .inr (by decide)
  · exact mem_scientific run member

end Layout

/-! ### Data of the double format -/

/-- A decimal that reads back as a positive number has a digit other than zero. -/
theorem Format.coefficient_shortestDouble_ne_zero {q : Rat} (positive : 0 < q)
    (number : double.ofRat q = .number q) : (shortestDouble q).coefficient ≠ 0 := by
  intro zero
  have back := ofRat_shortestDouble positive number
  rw [Decimal.toRat, zero, Nat.cast_zero, zero_mul, ofRat_zero] at back
  cases back
  exact absurd positive (lt_irrefl 0)

namespace Binary

open Format

def readMagnitude? (text : List Char) : Option Binary :=
  if text = "Infinity".toList then some (infinity false)
  else if text = "NaN".toList then some nan
  else (Decimal.read? text).map fun read => double.ofDecimal false read.2

def readDouble? : List Char → Option Binary
  | '-' :: rest => (readMagnitude? rest).map negate
  | text => readMagnitude? text

/-- The text of a magnitude begins with a digit and is read as the decimal that was written. -/
theorem exists_read?_doubleMagnitude {q : Rat} (nonneg : 0 ≤ q)
    (number : double.ofRat q = .number q) :
    ∃ first rest d, doubleMagnitude q = first :: rest ∧ isDigit first = true ∧
      Decimal.read? (first :: rest) = some (false, d) ∧ d.toRat = (shortestDouble q).toRat ∧
      double.ofDecimal false d = .number q := by
  rcases nonneg.eq_or_lt with rfl | positive
  · exact ⟨'0', ['.', '0'], ⟨0, -1⟩, by decide +kernel, by decide, by decide +kernel,
      by decide +kernel, by decide +kernel⟩
  · have back := ofRat_shortestDouble positive number
    obtain ⟨first, rest, d, text, digit, read, value⟩ :=
      Layout.real.exists_read?_write (coefficient_shortestDouble_ne_zero positive number)
    refine ⟨first, rest, d, text, digit, read, value, ?_⟩
    rw [ofDecimal_unsigned (by decide) (by decide), value]
    exact back

private theorem readMagnitude?_doubleMagnitude {q : Rat} (nonneg : 0 ≤ q)
    (number : double.ofRat q = .number q) :
    readMagnitude? (doubleMagnitude q) = some (.number q) ∧
      ∃ first rest, doubleMagnitude q = first :: rest ∧ isDigit first = true := by
  obtain ⟨first, rest, d, text, digit, read, -, rounded⟩ :=
    exists_read?_doubleMagnitude nonneg number
  have infinite : first :: rest ≠ "Infinity".toList := by
    rintro same
    cases same
    exact absurd digit (by decide)
  have none : first :: rest ≠ "NaN".toList := by
    rintro same
    cases same
    exact absurd digit (by decide)
  rw [text]
  refine ⟨?_, first, rest, rfl, digit⟩
  rw [readMagnitude?, if_neg infinite, if_neg none, read, Option.map_some, rounded]

private theorem readDouble?_of_digit {first : Char} {rest : List Char}
    (digit : isDigit first = true) :
    readDouble? (first :: rest) = readMagnitude? (first :: rest) := by
  unfold readDouble?
  split
  · next same =>
    cases same
    exact absurd digit (by decide)
  · rfl

/-- The text of a datum of the double format is read as the datum. -/
theorem readDouble?_doubleText {x : Binary} (fits : double.round x = x) :
    readDouble? x.doubleText.toList = some x := by
  cases x with
  | nan => rfl
  | infinity negative => cases negative <;> rfl
  | negativeZero => decide +kernel
  | number q =>
    have text : (number q).doubleText.toList
        = (if q < 0 then ['-'] else []) ++ doubleMagnitude |q| := by
      simp only [doubleText, write, isNegative, rat_abs_eq_abs, decide_eq_true_eq]
      split_ifs <;> simp
    -- The sign is no part of the magnitude that is read.
    by_cases negative : q < 0
    · have magnitude := ofRat_abs (by decide) negative.ne fits
      have read := (readMagnitude?_doubleMagnitude (abs_nonneg q) magnitude).1
      rw [text, if_pos negative, List.singleton_append, readDouble?, read, Option.map_some, negate,
        if_neg (abs_ne_zero.mpr negative.ne), abs_of_neg negative, neg_neg]
    · have nonneg := not_lt.mp negative
      obtain ⟨read, first, rest, begins, digit⟩ := readMagnitude?_doubleMagnitude nonneg fits
      rw [text, if_neg negative, List.nil_append, abs_of_nonneg nonneg]
      rw [begins] at read ⊢
      rw [readDouble?_of_digit digit, read]

end Binary

end Calculator
