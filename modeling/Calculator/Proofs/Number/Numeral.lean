import Calculator.Proofs.Number.Decimal
import Calculator.Proofs.Token.Digits
import Calculator.Proofs.Token.Patterns

/-!
# Numerals

The positional text of a decimal is a numeral with digits before and after its point, and it is
worth the decimal. Reading a numeral takes the value of all its digits and shifts it by those
after the point, so that a printed magnitude is read back.

## Main result

`Binary.real?_singleMagnitude`: the text of a magnitude without an exponent is a literal, and its
value is the magnitude.
-/

namespace Calculator

open Token

/-! ### Writing -/

namespace Layout

/-- The digits of a coefficient are its significant digits and zeros behind them. -/
theorem exists_toDigits_eq (n : Nat) :
    ∃ zeros, Nat.toDigits 10 n = significantDigits n ++ List.replicate zeros '0' := by
  have split := List.takeWhile_append_dropWhile (p := (· == '0'))
    (l := (Nat.toDigits 10 n).reverse)
  rw [takeWhile_zero_eq_replicate] at split
  refine ⟨((Nat.toDigits 10 n).reverse.takeWhile (· == '0')).length, ?_⟩
  calc Nat.toDigits 10 n = (Nat.toDigits 10 n).reverse.reverse := (List.reverse_reverse _).symm
    _ = _ := by rw [← split, List.reverse_append, List.reverse_replicate, split]; rfl

theorem isDigit_of_mem_significantDigits {n : Nat} {c : Char}
    (member : c ∈ significantDigits n) :
    isDigit c = true := by
  obtain ⟨zeros, split⟩ := exists_toDigits_eq n
  apply isDigit_of_mem_toDigits (n := n)
  rw [split]
  exact List.mem_append_left _ member

/-- A decimal is its significant digits, shifted by its leading exponent. -/
theorem toRat_eq_significant (d : Decimal) :
    d.toRat = digitsValue (significantDigits d.coefficient) *
      (10 : Rat) ^ (leadingExponent d + 1 - (significantDigits d.coefficient).length) := by
  -- The zeros at the end of the coefficient move into the power of ten.
  obtain ⟨zeros, split⟩ := exists_toDigits_eq d.coefficient
  have coefficient :
      d.coefficient = 10 ^ zeros * digitsValue (significantDigits d.coefficient) := by
    rw [← digitsValue_append_zeros, ← split, digitsValue_toDigits]
  have length : (Nat.toDigits 10 d.coefficient).length
      = (significantDigits d.coefficient).length + zeros := by
    rw [split, List.length_append, List.length_replicate]
  have exponent : leadingExponent d + 1 - (significantDigits d.coefficient).length
      = zeros + d.exponent := by
    rw [leadingExponent, length]
    omega
  rw [exponent, zpow_add₀ (by norm_num), zpow_natCast, Decimal.toRat]
  rw [congrArg (Nat.cast : Nat → Rat) coefficient]
  push_cast
  ring

/-- Positional text has digits on both sides of its point, and it is worth its digits with the
point behind the leading one. -/
theorem exists_positional_eq (digits : List Char) (run : ∀ c ∈ digits, isDigit c = true)
    (leading : Int) :
    ∃ whole fraction, positional leading digits = whole ++ '.' :: fraction ∧ whole ≠ [] ∧
      (∀ c ∈ whole, isDigit c = true) ∧ (∀ c ∈ fraction, isDigit c = true) ∧
      (digitsValue (whole ++ fraction) : Rat) * 10 ^ (-fraction.length : Int)
        = digitsValue digits * 10 ^ (leading + 1 - digits.length) := by
  have zero : isDigit '0' = true := by decide
  have zeros (n : Nat) : ∀ c ∈ List.replicate n '0', isDigit c = true := by
    intro c member
    rw [List.eq_of_mem_replicate member]
    exact zero
  by_cases below : leading < 0
  · -- Zeros fill the places between the point and the leading digit.
    refine ⟨['0'], List.replicate (-leading - 1).toNat '0' ++ digits, ?_, by simp, by simpa, ?_, ?_⟩
    · rw [positional, if_pos below]
      rfl
    · intro c member
      rcases List.mem_append.mp member with filling | inside
      · exact zeros _ c filling
      · exact run c inside
    · have value : digitsValue (['0'] ++ (List.replicate (-leading - 1).toNat '0' ++ digits))
          = digitsValue digits := digitsValue_zeros_append digits ((-leading - 1).toNat + 1)
      rw [value, List.length_append, List.length_replicate]
      congr 2
      omega
  · obtain ⟨n, rfl⟩ : ∃ n : Nat, leading = n := ⟨leading.toNat, by omega⟩
    have width : (n : Int).toNat + 1 = n + 1 := rfl
    rw [positional, if_neg below, width]
    rcases Nat.lt_or_ge (n + 1) digits.length with long | short
    · -- The point stands among the digits.
      have behind : digits.drop (n + 1) ≠ [] := by
        rw [Ne, List.drop_eq_nil_iff]
        omega
      refine ⟨digits.take (n + 1), digits.drop (n + 1), ?_, ?_, ?_, ?_, ?_⟩
      · simp [List.rightpad, behind, Nat.min_eq_left long.le]
      · rw [Ne, List.take_eq_nil_iff]
        rintro (none | none)
        · omega
        · simp [none] at long
      · exact fun c member => run c (List.mem_of_mem_take member)
      · exact fun c member => run c (List.mem_of_mem_drop member)
      · rw [List.take_append_drop, List.length_drop]
        congr 2
        omega
    · -- Zeros fill the places up to the point, and one follows it.
      have nothing : digits.drop (n + 1) = [] := List.drop_eq_nil_iff.mpr short
      refine ⟨digits ++ List.replicate (n + 1 - digits.length) '0', ['0'], ?_, ?_, ?_, ?_, ?_⟩
      · simp [List.rightpad, nothing, List.take_of_length_le short]
      · intro none
        have length := congrArg List.length none
        rw [List.length_append, List.length_replicate, List.length_nil] at length
        omega
      · intro c member
        rcases List.mem_append.mp member with inside | filling
        · exact run c inside
        · exact zeros _ c filling
      · simpa
      · have value : digitsValue (digits ++ List.replicate (n + 1 - digits.length) '0' ++ ['0'])
            = 10 ^ (n + 1 - digits.length + 1) * digitsValue digits := by
          rw [List.append_assoc, ← List.replicate_succ', digitsValue_append_zeros]
        have exponent : (n : Int) + 1 - digits.length = (n + 1 - digits.length : Nat) := by omega
        rw [value, exponent, zpow_natCast, pow_succ, List.length_singleton]
        push_cast
        rw [zpow_neg, zpow_one]
        ring

/-- The text of a decimal is a numeral worth the decimal, unless it has an exponent. -/
theorem exists_write_eq (layout : Layout) (d : Decimal) (plain : 'e' ∉ layout.write d) :
    ∃ whole fraction, layout.write d = whole ++ '.' :: fraction ∧ whole ≠ [] ∧
      (∀ c ∈ whole, isDigit c = true) ∧ (∀ c ∈ fraction, isDigit c = true) ∧
      (digitsValue (whole ++ fraction) : Rat) * 10 ^ (-fraction.length : Int) = d.toRat := by
  by_cases near : layout.leastPositional ≤ leadingExponent d ∧
      leadingExponent d ≤ layout.greatestPositional
  · rw [write, if_pos near, toRat_eq_significant]
    exact exists_positional_eq _ (fun _ member => isDigit_of_mem_significantDigits member) _
  · rw [write, if_neg near] at plain
    exact absurd (by simp [scientific]) plain

end Layout

open Format

namespace Binary

/-- A double-format number that is written without an exponent is read as itself, and then
rounded to the single format. -/
theorem real?_doubleMagnitude {r : Rat} (positive : 0 < r) (number : double.ofRat r = .number r)
    (plain : 'e' ∉ doubleMagnitude r) :
    TokenKind.real.Matches (doubleMagnitude r) ∧
      real? ⟨.real, String.ofList (doubleMagnitude r), 1⟩ = some (single.ofRat r) := by
  obtain ⟨whole, fraction, text, nonempty, digits, fractionDigits, value⟩ :=
    Layout.exists_write_eq Layout.real (shortestDouble r) plain
  have back := ofRat_shortestDouble positive number
  -- Only digits that are worth something escape the rule for zero.
  have coefficient : digitsValue (whole ++ fraction) ≠ 0 := by
    intro zero
    rw [zero, Nat.cast_zero, zero_mul] at value
    rw [← value, ofRat_zero] at back
    cases back
    exact absurd positive (lt_irrefl 0)
  have read : double.ofDecimal false ⟨digitsValue (whole ++ fraction), -fraction.length⟩
      = .number r := by
    rw [ofDecimal_eq_ofRat (by decide) (by decide) coefficient, if_neg Bool.false_ne_true]
    exact (congrArg double.ofRat value).trans back
  rw [doubleMagnitude, text]
  refine ⟨⟨whole, fraction, rfl, nonempty, digits, fractionDigits⟩, ?_⟩
  rw [real?, String.toList_ofList, Decimal.read?_of_point nonempty digits fractionDigits,
    Option.map_some]
  exact congrArg (fun x => some (single.round x)) read

/-- The text of a magnitude without an exponent is a literal, and its value is the magnitude. -/
theorem real?_singleMagnitude {q : Rat} (nonneg : 0 ≤ q) (number : single.ofRat q = .number q)
    (plain : 'e' ∉ singleMagnitude q) :
    TokenKind.real.Matches (singleMagnitude q) ∧
      real? ⟨.real, String.ofList (singleMagnitude q), 1⟩ = some (.number q) := by
  rcases nonneg.eq_or_lt with rfl | positive
  · have text : singleMagnitude 0 = ['0', '.', '0'] := by decide +kernel
    rw [text]
    have zero : ∀ c ∈ ['0'], isDigit c = true := List.all_eq_true.mp rfl
    exact ⟨⟨['0'], ['0'], rfl, List.cons_ne_nil _ _, zero, zero⟩, by decide +kernel⟩
  · obtain ⟨r, positive, double, rounded, text⟩ := exists_double_of_singleMagnitude positive number
    rw [text] at plain ⊢
    rw [← rounded]
    exact real?_doubleMagnitude positive double plain

end Binary

end Calculator
