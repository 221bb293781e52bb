import Calculator.Expr.Reading
import Calculator.Proofs.Number.DoubleRounding
import Calculator.Proofs.Token.Digits
import Calculator.Proofs.Token.Patterns

/-!
# Real literals

A real literal is read in the double format and then rounded to the single one. The detour is
harmless for most literals, but a literal very close to the middle between two neighbours of the
single format, and not on it, is first carried onto that middle.

## Main result

`literal_is_nearest_iff`: a real literal is read as the datum of the single format that is nearest
to its exact value, unless the double format carries it across the middle between two neighbours.
-/

namespace Calculator

open Token Format

/-- The exact value of digits with a point behind the whole ones. -/
def Token.numeralValue (whole fraction : List Char) : Rat :=
  digitsValue whole + digitsValue fraction / 10 ^ fraction.length

private theorem Token.toRat_numeral (whole fraction : List Char) :
    Decimal.toRat ⟨digitsValue (whole ++ fraction), -fraction.length⟩
      = numeralValue whole fraction := by
  have power : (10 : Rat) ^ fraction.length ≠ 0 := by positivity
  rw [Decimal.toRat, digitsValue_append, numeralValue, zpow_neg, zpow_natCast]
  push_cast
  field_simp

private theorem Token.real?_numeral {token : Token} {whole fraction : List Char}
    (text : token.text.toList = whole ++ '.' :: fraction) (nonempty : whole ≠ [])
    (digits : ∀ c ∈ whole, isDigit c = true) (fractionDigits : ∀ c ∈ fraction, isDigit c = true) :
    token.real? = some (single.round (double.ofRat (numeralValue whole fraction))) := by
  rw [real?, text, Decimal.read?_of_point nonempty digits fractionDigits, Option.map_some]
  simp only [ofDecimal_unsigned (by decide : 0 < double.precision) (by decide), toRat_numeral]

/-- The operand that a real literal becomes, wherever it stands, is the datum of the single format
that is nearest to its exact value, unless the double format misleads. -/
theorem literal_is_nearest_iff {token : Token} {whole fraction : List Char}
    (kind : token.kind = .real) (text : token.text.toList = whole ++ '.' :: fraction)
    (nonempty : whole ≠ []) (digits : ∀ c ∈ whole, isDigit c = true)
    (fractionDigits : ∀ c ∈ fraction, isDigit c = true) :
    ∃ x, (∀ extent negated depth rest s,
        readOperand extent negated depth (token :: rest) s
          = readOperator extent depth rest (s.addOperand (.real x))) ∧
      (x = single.ofRat (numeralValue whole fraction) ↔
        ¬ double.Misleads single (numeralValue whole fraction)) := by
  have value := real?_numeral text nonempty digits fractionDigits
  refine ⟨_, ?_, round_ofRat_iff double_refines_single _⟩
  intro extent negated depth rest s
  rw [readOperand.eq_def]
  simp only [kind, value]

/-- The odd integer above the digits of the single format, exactly on the middle. -/
theorem oddMiddle_is_nearest :
    (¬ double.Misleads single (numeralValue "16777217".toList [])) ∧
    ∃ x, (∀ extent negated depth rest s,
        readOperand extent negated depth (⟨.real, "16777217.", 1⟩ :: rest) s
          = readOperator extent depth rest (s.addOperand (.real x))) ∧
      x = single.ofRat (numeralValue "16777217".toList []) := by
  have plain : ¬ double.Misleads single (numeralValue "16777217".toList []) := by decide +kernel
  have text : (Token.mk .real "16777217." 1).text.toList = "16777217".toList ++ '.' :: [] := rfl
  have digits : ∀ c ∈ "16777217".toList, isDigit c = true := List.all_eq_true.mp rfl
  obtain ⟨x, operand, nearest⟩ :=
    literal_is_nearest_iff rfl text (by decide) digits (List.forall_mem_nil _)
  exact ⟨plain, x, operand, nearest.mpr plain⟩

/-- Just above the middle between one and its upper neighbour the literal becomes one, though the
upper neighbour is nearer. -/
theorem pastMiddle_is_carried_back :
    Expr.ofTokens [⟨.real, "1.00000005960464477539062500000001", 1⟩]
      = .ok (some (.real (.number 1))) ∧
    single.ofRat (numeralValue "1".toList "00000005960464477539062500000001".toList)
      = .number (1 + 1 / 2 ^ 23) := by
  constructor <;> decide +kernel

end Calculator
