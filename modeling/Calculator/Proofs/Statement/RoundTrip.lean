import Calculator.Proofs.Evaluation.Width
import Calculator.Proofs.Number.Numeral
import Calculator.Proofs.Reading.Completeness
import Calculator.Proofs.Statement.Effect
import Calculator.Proofs.Token.Words

/-!
# Numbers typed back

The text of a number is a literal, behind a minus sign if the number is negative. As a statement
it is read as the literal or its negation, and evaluation gives the number back. The sign reaches
two numbers that no literal has: the smallest integer and negative zero.

## Main result

`printed_numbers_read_back`: a statement that spells a number has the number as its value and
leaves the environment alone.
-/

namespace Calculator

/-! ### Literals as statements -/

namespace Statement

variable {word : Word} {e : Expr} {source : String}

/-- A single word is read as the atom that it spells. -/
theorem tree?_word (legal : word.IsLegal)
    (atom : ∀ token, Token.word token = word → Derives .atom false [token] e) :
    tree? word.text = .ok (some e) := by
  have whole : Token.scan word.text = .ok [⟨word.kind, word.text, 1⟩] :=
    Token.scanFrom_lastWord legal 1
  simp only [tree?, whole, ofTokens_of_derives (atom ⟨word.kind, word.text, 1⟩ rfl).toAssignment]

/-- A word behind a sign is read as the negation of the atom that it spells there. -/
private theorem tree?_signed (legal : word.IsLegal)
    (atom : ∀ token, Token.word token = word → Derives .atom true [token] e) :
    tree? ("-" ++ word.text) = .ok (some (.unary .negate e)) := by
  have sign : Word.IsLegal ⟨.minus, "-"⟩ := Word.isLegal_of_matches ⟨'-', rfl, rfl⟩ (by decide)
  have whole : Token.scan ("-" ++ word.text)
      = .ok [⟨.minus, "-", 1⟩, ⟨word.kind, word.text, (1 + "-".length : Nat)⟩] := by
    rw [Token.scan, String.toList_append]
    refine (Token.scanFrom_word sign (fun _ _ => rfl) 1).trans ?_
    rw [Token.scanFrom_lastWord legal]
    rfl
  have negated : Derives .unary false
      [⟨.minus, "-", 1⟩, ⟨word.kind, word.text, (1 + "-".length : Nat)⟩] (.unary .negate e) :=
    .negation rfl ((atom ⟨word.kind, word.text, (1 + "-".length : Nat)⟩ rfl).toUnary (by decide))
  simp only [tree?, whole, ofTokens_of_derives negated.toAssignment]

private theorem run_of_evaluate (env : Environment) {v : Number}
    (tree : tree? source = .ok (some e)) (plain : e.isAssignment = false)
    (evaluated : e.evaluate env = .ok v) :
    (run env false source).result = .ok (some (.value (.number v))) ∧
      (run env false source).environment = env := by
  have executed : e.execute env = .ok (.number v, env) := by
    rw [Expr.execute_of_isAssignment_eq_false env plain, evaluated]
    rfl
  obtain ⟨result, environment⟩ := run_of_tree env false tree
  simp only [runTree, executed] at result environment
  exact ⟨result, environment⟩

end Statement

/-! ### Integers -/

private theorem integerText_of_neg {n : Int} (negative : n < 0) :
    integerText n = "-" ++ integerText (n.natAbs : Nat) := by
  apply String.toList_inj.mp
  rw [String.toList_append, Word.toList_integerText, integerText, if_pos negative,
    String.toList_ofList]
  rfl

private theorem exists_tree_integerText {n : Int} (lower : smallestInteger ≤ n)
    (upper : n ≤ largestInteger) :
    ∃ e, Statement.tree? (integerText n) = .ok (some e) ∧ e.isAssignment = false ∧
      ∀ env, e.evaluate env = .ok (.integer n) := by
  have self := wrap_of_range lower upper
  have small : n.natAbs ≤ Token.largestMagnitude := by
    simp only [smallestInteger, largestInteger, Token.largestMagnitude] at *
    omega
  have legal := Word.isLegal_integer small
  by_cases negative : n < 0
  · have atom (token : Token) (same : token.word = ⟨.integer, integerText (n.natAbs : Nat)⟩) :
        Derives .atom true [token] (.integer (n.natAbs : Nat)) :=
      .integer (congrArg Word.kind same) (Token.integer?_of_word same) (.inr rfl)
    have tree := Statement.tree?_signed legal atom
    rw [← integerText_of_neg negative] at tree
    refine ⟨_, tree, rfl, ?_⟩
    intro env
    -- The magnitude of the smallest integer wraps to that integer, and so does its negation.
    have value : wrap (-wrap (n.natAbs : Nat)) = n := by
      have opposite : -((n.natAbs : Nat) : Int) = n := by omega
      rw [wrap_neg_wrap, opposite, self]
    simp only [Expr.evaluate, Number.ofInt, Number.negate, if_true, value]
  · have same : ((n.natAbs : Nat) : Int) = n := by omega
    have atom (token : Token) (same : token.word = ⟨.integer, integerText (n.natAbs : Nat)⟩) :
        Derives .atom false [token] (.integer (n.natAbs : Nat)) :=
      .integer (congrArg Word.kind same) (Token.integer?_of_word same) (.inl (by omega))
    have tree := Statement.tree?_word legal atom
    rw [same] at tree
    refine ⟨_, tree, rfl, ?_⟩
    intro env
    simp only [Expr.evaluate, Number.ofInt, self]

/-! ### Reals -/

/-- Numbers whose text is a literal or its negation: integers, and finite reals that are written
without an exponent. -/
def Number.IsPlain : Number → Prop
  | integer _ => True
  | real x => x.IsFinite ∧ 'e' ∉ x.singleText.toList

/-- The text of a magnitude is a word that spells it, with a sign before it or without one. -/
theorem isLegal_singleMagnitude {q : Rat} (nonneg : 0 ≤ q)
    (number : Format.single.ofRat q = .number q) (plain : 'e' ∉ Binary.singleMagnitude q) :
    Word.IsLegal ⟨.real, String.ofList (Binary.singleMagnitude q)⟩ ∧
      ∀ negated token, Token.word token = ⟨.real, String.ofList (Binary.singleMagnitude q)⟩ →
        Derives .atom negated [token] (.real (.number q)) := by
  obtain ⟨matching, value⟩ := Binary.real?_singleMagnitude nonneg number plain
  refine ⟨Word.isLegal_of_matches ?_ (by decide), ?_⟩
  · rw [String.toList_ofList]
    exact matching
  · intro negated token same
    exact .real (congrArg Word.kind same) ((Token.real?_of_word same).trans value)

/-- The negation of a magnitude is written with a sign before the magnitude. -/
theorem exists_tree_signed {q : Rat} {x : Binary} (nonneg : 0 ≤ q)
    (number : Format.single.ofRat q = .number q) (plain : 'e' ∉ Binary.singleMagnitude q)
    (negated : Binary.negate (.number q) = x) (fits : Format.single.round x = x) :
    ∃ e, Statement.tree? ("-" ++ String.ofList (Binary.singleMagnitude q)) = .ok (some e) ∧
      e.isAssignment = false ∧ ∀ env, e.evaluate env = .ok (.real x) := by
  obtain ⟨legal, atom⟩ := isLegal_singleMagnitude nonneg number plain
  have tree := Statement.tree?_signed legal (atom true)
  refine ⟨_, tree, rfl, ?_⟩
  intro env
  have own : Format.single.round (.number q) = .number q := number
  simp only [Expr.evaluate, Number.ofBinary, Number.negate, if_true, own, negated, fits]

private theorem exists_tree_singleText {x : Binary} (fits : Format.single.round x = x)
    (finite : x.IsFinite) (plain : 'e' ∉ x.singleText.toList) :
    ∃ e, Statement.tree? x.singleText = .ok (some e) ∧ e.isAssignment = false ∧
      ∀ env, e.evaluate env = .ok (.real x) := by
  cases x with
  | infinity | nan => cases finite
  | negativeZero =>
    have zero := Format.ofRat_zero Format.single
    exact exists_tree_signed (le_refl 0) zero (by decide +kernel) rfl rfl
  | number q =>
    have text : (Binary.number q).singleText
        = (if q < 0 then "-" else "") ++ String.ofList (Binary.singleMagnitude |q|) := by
      simp only [Binary.singleText, Binary.write, Binary.isNegative, rat_abs_eq_abs,
        decide_eq_true_eq]
    rw [text] at plain ⊢
    by_cases negative : q < 0
    · rw [if_pos negative] at plain ⊢
      have magnitude := Format.ofRat_abs (by decide) negative.ne fits
      have opposite : Binary.negate (.number |q|) = .number q := by
        rw [Binary.negate, if_neg (abs_ne_zero.mpr negative.ne), abs_of_neg negative, neg_neg]
      refine exists_tree_signed (abs_nonneg q) magnitude ?_ opposite fits
      simpa using plain
    · rw [if_neg negative, abs_of_nonneg (not_lt.mp negative), String.empty_append] at plain ⊢
      rw [String.toList_ofList] at plain
      obtain ⟨legal, atom⟩ := isLegal_singleMagnitude (not_lt.mp negative) fits plain
      have tree := Statement.tree?_word legal (atom false)
      refine ⟨_, tree, rfl, ?_⟩
      intro env
      rw [Expr.evaluate, Number.ofBinary, fits]

/-- A statement that spells a number has the number as its value and leaves the environment
alone. -/
theorem printed_numbers_read_back (env : Environment) {v : Number} (fits : v.Fits)
    (plain : v.IsPlain) :
    (Statement.run env false v.text).result = .ok (some (.value (.number v))) ∧
      (Statement.run env false v.text).environment = env := by
  cases v with
  | integer n =>
    obtain ⟨e, tree, noTarget, evaluated⟩ := exists_tree_integerText fits.1 fits.2
    exact Statement.run_of_evaluate env tree noTarget (evaluated env)
  | real x =>
    obtain ⟨e, tree, noTarget, evaluated⟩ := exists_tree_singleText fits plain.1 plain.2
    exact Statement.run_of_evaluate env tree noTarget (evaluated env)

/-- A negative real that needs nine digits. -/
def nineDigits : Binary :=
  .number (-16384001 / 16384)

theorem singleText_nineDigits : nineDigits.singleText = "-1000.00006" := by
  have magnitude : Binary.singleMagnitude (-16384001 / 16384 : Rat).abs
      = "1000.00006".toList := by decide +kernel
  have negative : (-16384001 / 16384 : Rat) < 0 := by norm_num
  simp [nineDigits, Binary.singleText, Binary.write, Binary.isNegative, magnitude, negative]

/-- The smallest integer, negative zero, and a real of nine digits, with a name bound. -/
theorem extremes_read_back :
    (Number.Fits (.integer smallestInteger) ∧
      (Statement.run (Environment.empty.assign "x" (.integer 7)) false "-2147483648").result
        = .ok (some (.value (.number (.integer smallestInteger))))) ∧
    (Number.Fits (.real .negativeZero) ∧ Number.IsPlain (.real .negativeZero) ∧
      (Statement.run (Environment.empty.assign "x" (.integer 7)) false "-0.0").result
        = .ok (some (.value (.number (.real .negativeZero))))) ∧
    (Number.Fits (.real nineDigits) ∧ Number.IsPlain (.real nineDigits) ∧
      (Statement.run (Environment.empty.assign "x" (.integer 7)) false "-1000.00006").result
        = .ok (some (.value (.number (.real nineDigits))))) := by
  have integer : (Number.integer smallestInteger).text = "-2147483648" := rfl
  have zero : Binary.negativeZero.singleText = "-0.0" := rfl
  have small : Number.Fits (.integer smallestInteger) :=
    (by decide : smallestInteger ≤ smallestInteger ∧ smallestInteger ≤ largestInteger)
  have rounded : Number.Fits (.real nineDigits) :=
    (by decide +kernel : Format.single.round nineDigits = nineDigits)
  have zeroPlain : Number.IsPlain (.real .negativeZero) := by
    refine ⟨trivial, ?_⟩
    rw [zero]
    decide
  have plain : Number.IsPlain (.real nineDigits) := by
    refine ⟨trivial, ?_⟩
    rw [singleText_nineDigits]
    decide
  refine ⟨⟨small, ?_⟩, ⟨rfl, zeroPlain, ?_⟩, rounded, plain, ?_⟩
  · rw [← integer]
    exact (printed_numbers_read_back _ small trivial).1
  · rw [← zero]
    exact (printed_numbers_read_back _ (v := .real .negativeZero) rfl zeroPlain).1
  · rw [← singleText_nineDigits]
    exact (printed_numbers_read_back _ rounded plain).1

end Calculator
