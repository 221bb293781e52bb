import Calculator.Expr.Reading
import Mathlib.Data.List.TakeWhile

/-!
# Literals as the scanner spells them

An integer token of a scanned text is a run of digits, and a real token is a run of digits
with a point and digits after it. Such texts are numerals, so that no scanned literal is
refused for its spelling.
-/

namespace Calculator

/-- A literal is spelled as the scanner spells it: an integer by digits alone, a real by
digits with a point among or after them. -/
def Token.IsLexical (token : Token) : Prop :=
  match token.kind with
  | .integer => token.text.toList ≠ [] ∧ ∀ c ∈ token.text.toList, isDigit c = true
  | .real => ∃ whole fraction, token.text.toList = whole ++ '.' :: fraction ∧ whole ≠ [] ∧
      (∀ c ∈ whole, isDigit c = true) ∧ ∀ c ∈ fraction, isDigit c = true
  | _ => True

theorem Decimal.readSign_digit {c : Char} {rest : List Char} (digit : Token.isDigit c = true) :
    readSign (c :: rest) = (false, c :: rest) := by
  unfold readSign
  split
  next equal => cases equal; exact absurd digit (by decide)
  next equal => cases equal; exact absurd digit (by decide)
  next => rfl

/-- A run of digits is taken whole from the front of what begins with no digit. -/
theorem Token.takeWhile_digits {whole : List Char} (digits : ∀ c ∈ whole, isDigit c = true)
    (fraction : List Char) :
    (whole ++ '.' :: fraction).takeWhile isDigit = whole ∧
      (whole ++ '.' :: fraction).dropWhile isDigit = '.' :: fraction := by
  rw [List.takeWhile_append_of_pos digits, List.dropWhile_append_of_pos digits]
  simp [isDigit]

/-- The value of digits with a point among or after them. -/
theorem Decimal.read?_of_point {whole fraction : List Char} (nonempty : whole ≠ [])
    (digits : ∀ c ∈ whole, Token.isDigit c = true)
    (fractionDigits : ∀ c ∈ fraction, Token.isDigit c = true) :
    read? (whole ++ '.' :: fraction)
      = some (false, ⟨Token.digitsValue (whole ++ fraction), -fraction.length⟩) := by
  obtain ⟨c, rest, first⟩ := List.exists_cons_of_ne_nil nonempty
  have unsigned : readSign (whole ++ '.' :: fraction) = (false, whole ++ '.' :: fraction) := by
    rw [first] at digits ⊢
    exact readSign_digit (digits c List.mem_cons_self)
  obtain ⟨taken, dropped⟩ := Token.takeWhile_digits digits fraction
  have fractionTaken : fraction.takeWhile Token.isDigit = fraction :=
    List.takeWhile_eq_self_iff.mpr fractionDigits
  have fractionDropped : fraction.dropWhile Token.isDigit = [] :=
    List.dropWhile_eq_nil_iff.mpr fractionDigits
  simp [read?, unsigned, taken, dropped, readFraction, fractionTaken, fractionDropped, nonempty,
    readExponent]

namespace Token

theorem integer?_of_isLexical {token : Token} (lexical : token.IsLexical)
    (kind : token.kind = .integer) :
    token.integer? = some (digitsValue token.text.toList : Int) := by
  simp only [IsLexical, kind] at lexical
  obtain ⟨nonempty, digits⟩ := lexical
  obtain ⟨c, rest, text⟩ := List.exists_cons_of_ne_nil nonempty
  have unsigned : Decimal.readSign token.text.toList = (false, token.text.toList) := by
    rw [text] at digits ⊢
    exact Decimal.readSign_digit (digits c List.mem_cons_self)
  have all : token.text.toList.all isDigit = true := List.all_eq_true.mpr digits
  simp [integer?, unsigned, nonempty, all]

theorem real?_of_isLexical {token : Token} (lexical : token.IsLexical)
    (kind : token.kind = .real) : ∃ x, token.real? = some x := by
  simp only [IsLexical, kind] at lexical
  obtain ⟨whole, fraction, text, nonempty, digits, fractionDigits⟩ := lexical
  have read := Decimal.read?_of_point nonempty digits fractionDigits
  rw [← text] at read
  exact ⟨_, by rw [real?, read, Option.map_some]⟩

end Token

end Calculator
