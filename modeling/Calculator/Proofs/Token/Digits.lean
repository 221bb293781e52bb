import Calculator.Token.Scan
import Mathlib.Data.List.TakeWhile
import Mathlib.Tactic.Ring

/-!
# Runs of digits

The value of a run of digits is read from left to right, so that a run is worth its front
shifted by the length of its end. Zeros at the front are worth nothing, and a run without them
is worth at least the power of ten of its length. Hence the two tests of a magnitude, on the
length and on the value without the zeros, are one test of the value.
-/

namespace Calculator.Token

theorem isDigit_iff {c : Char} : isDigit c = true ↔ c.isDigit = true := by
  simp only [isDigit, Char.isDigit, Bool.and_eq_true, decide_eq_true_eq]
  exact Iff.rfl

theorem isDigit_of_mem_toDigits {n : Nat} {c : Char} (member : c ∈ Nat.toDigits 10 n) :
    isDigit c = true :=
  isDigit_iff.mpr (Nat.isDigit_of_mem_toDigits (by decide) (by decide) member)

private theorem digitsValue_eq_ofDigitChars (digits : List Char) :
    digitsValue digits = Nat.ofDigitChars 10 digits 0 := rfl

theorem digitsValue_append (front rear : List Char) :
    digitsValue (front ++ rear) = 10 ^ rear.length * digitsValue front + digitsValue rear := by
  rw [digitsValue_eq_ofDigitChars, Nat.ofDigitChars_append,
    Nat.ofDigitChars_eq_ofDigitChars_zero]
  rfl

theorem digitsValue_zeros (n : Nat) : digitsValue (List.replicate n '0') = 0 := by
  rw [digitsValue_eq_ofDigitChars, Nat.ofDigitChars_replicate_zero, Nat.mul_zero]

theorem digitsValue_toDigits (n : Nat) : digitsValue (Nat.toDigits 10 n) = n :=
  Nat.ofDigitChars_ten_toDigits

/-- Digits followed by zeros, or the other way round, are worth the digits alone or shifted. -/
theorem digitsValue_append_zeros (digits : List Char) (n : Nat) :
    digitsValue (digits ++ List.replicate n '0') = 10 ^ n * digitsValue digits := by
  rw [digitsValue_append, digitsValue_zeros, List.length_replicate, Nat.add_zero]

theorem digitsValue_zeros_append (digits : List Char) (n : Nat) :
    digitsValue (List.replicate n '0' ++ digits) = digitsValue digits := by
  rw [digitsValue_append, digitsValue_zeros, Nat.mul_zero, Nat.zero_add]

/-! ### Zeros at the front -/

theorem takeWhile_zero_eq_replicate (digits : List Char) :
    digits.takeWhile (· == '0')
      = List.replicate (digits.takeWhile (· == '0')).length '0' := by
  apply List.eq_replicate_of_mem
  intro c member
  simpa using List.mem_takeWhile_imp member

private theorem digitsValue_dropWhile_zero (digits : List Char) :
    digitsValue (digits.dropWhile (· == '0')) = digitsValue digits := by
  have split := List.takeWhile_append_dropWhile (p := (· == '0')) (l := digits)
  rw [takeWhile_zero_eq_replicate] at split
  rw [← congrArg digitsValue split, digitsValue_zeros_append]

/-- A run of digits that begins with no zero is worth the power of ten of its length or more. -/
theorem pow_length_le_digitsValue {c : Char} {rest : List Char} (digit : isDigit c = true)
    (nonzero : c ≠ '0') : 10 ^ rest.length ≤ digitsValue (c :: rest) := by
  have first : 1 ≤ digitsValue [c] := by
    have range := isDigit_iff.mp digit
    simp only [Char.isDigit, Bool.and_eq_true, decide_eq_true_eq] at range
    have code : c.toNat ≠ 48 := fun equal => nonzero (Char.toNat_inj.mp equal)
    have above : 48 ≤ c.toNat := UInt32.le_iff_toNat_le.mp range.1
    simp only [digitsValue, List.foldl_cons, List.foldl_nil, Nat.mul_zero, Nat.zero_add]
    have zero : '0'.toNat = 48 := rfl
    omega
  have split := digitsValue_append [c] rest
  rw [List.singleton_append] at split
  rw [split]
  calc 10 ^ rest.length = 10 ^ rest.length * 1 := (Nat.mul_one _).symm
    _ ≤ 10 ^ rest.length * digitsValue [c] := Nat.mul_le_mul_left _ first
    _ ≤ _ := Nat.le_add_right _ _

/-- The test of a magnitude is a test of its value, whatever zeros it begins with. -/
theorem fitsMagnitude_iff {digits : List Char} (run : ∀ c ∈ digits, isDigit c = true) :
    fitsMagnitude digits = true ↔ digitsValue digits ≤ largestMagnitude := by
  simp only [fitsMagnitude, Bool.and_eq_true, decide_eq_true_eq, digitsValue_dropWhile_zero]
  constructor
  · exact fun fits => fits.2
  · intro small
    refine ⟨?_, small⟩
    rw [← digitsValue_dropWhile_zero] at small
    cases significant : digits.dropWhile (· == '0') with
    | nil => exact Nat.zero_le _
    | cons c rest =>
      have member : c ∈ digits := by
        apply (List.dropWhile_suffix (· == '0')).mem
        rw [significant]
        exact List.mem_cons_self
      have nonzero : c ≠ '0' := by
        have head := List.head?_dropWhile_not (· == '0') digits
        rw [significant] at head
        simpa using head
      -- Eleven digits are worth ten billion at least, which is more than two to the 31.
      by_contra long
      have large : 10 ^ 10 ≤ digitsValue (c :: rest) := by
        refine Nat.le_trans (Nat.pow_le_pow_right (by decide) ?_)
          (pow_length_le_digitsValue (run c member) nonzero)
        simp only [List.length_cons] at long
        omega
      rw [significant] at small
      have bound : largestMagnitude < 10 ^ 10 := by decide
      omega

end Calculator.Token
