import Calculator.Proofs.Expr.Document
import Calculator.Proofs.Reading.Literals

/-!
# Statements shown as trees

A shown statement answers with the text of its tree. All of that text is in the grammar of JSON
but for one kind of literal: digits may spell a real beyond the single format, which is rounded to
an infinity, and the text of an infinity is no number of the grammar.

## Main result

`shown_tree_is_document_iff`: the text of a shown statement is a document exactly when no literal
of the statement is rounded to an infinity.
-/

namespace Calculator

namespace Statement

/-- A shown statement has tokens and a tree, and answers with the text of the tree. -/
theorem exists_tree_of_shown {env : Environment} {source : String} {answer : Answer}
    (shown : (run env true source).result = .ok (some answer)) :
    ∃ tokens e, Token.scan source = .ok tokens ∧ Expr.ofTokens tokens = .ok (some e) ∧
      answer = .tree e.json := by
  cases tree : tree? source with
  | error error =>
    simp only [run, tree] at shown
    cases shown
  | ok read =>
    cases read with
    | none =>
      simp only [run, tree] at shown
      cases shown
    | some e =>
      obtain ⟨tokens, scanned, read⟩ := exists_tokens_of_tree tree
      rw [(run_of_tree env true tree).1, runTree, if_pos rfl] at shown
      cases shown
      exact ⟨tokens, e, scanned, read, rfl⟩

private theorem shown_of_derives (env : Environment) {source : String} {tokens : List Token}
    {e : Expr} (scanned : Token.scan source = .ok tokens)
    (derives : Derives .assignment false tokens e) :
    (run env true source).result = .ok (some (.tree e.json)) := by
  have tree : tree? source = .ok (some e) := by
    simp only [tree?, scanned, ofTokens_of_derives derives]
  exact (run_of_tree env true tree).1

/-- The text of a shown statement is a document exactly when no literal of the statement is
rounded to an infinity. -/
theorem shown_tree_is_document_iff {env : Environment} {source : String} {answer : Answer}
    (shown : (run env true source).result = .ok (some answer)) :
    ∃ tokens, Token.scan source = .ok tokens ∧
      (Json.IsDocument answer.text.toList ↔
        ∀ token ∈ tokens, token.kind = .real → ∃ x, token.real? = some x ∧ x.IsFinite) := by
  obtain ⟨tokens, e, scanned, read, rfl⟩ := exists_tree_of_shown shown
  have doubles := holdsDoubles_of_ofTokens (Token.isLexical_of_scan scanned) read
  have reals := (derives_of_ofTokens read).everyReal_iff Binary.IsFinite
  exact ⟨tokens, scanned, (Expr.isDocument_json_iff doubles).trans reals⟩

/-- The tokens of `rate = -0.125`. -/
def negativeEighth : List Token :=
  [⟨.identifier, "rate", 1⟩, ⟨.equals, "=", 6⟩, ⟨.minus, "-", 8⟩, ⟨.real, "0.125", 9⟩]

theorem negativeEighth_is_document :
    ∃ answer, (run .empty true "rate = -0.125").result = .ok (some answer) ∧
      Json.IsDocument answer.text.toList := by
  have scanned : Token.scan "rate = -0.125" = .ok negativeEighth := by decide +kernel
  have value : Token.real? ⟨.real, "0.125", 9⟩ = some (.number (1 / 8)) := by decide +kernel
  have magnitude : Derives .unary true [⟨.real, "0.125", 9⟩] (.real (.number (1 / 8))) :=
    (Derives.real rfl value).toUnary (by decide)
  have read : Derives .assignment false negativeEighth
      (.binary .assign (.identifier "rate") (.unary .negate (.real (.number (1 / 8))))) :=
    .assignment ((Derives.name rfl).toSum (by decide)) rfl
      (Derives.negation rfl magnitude).toAssignment
  have shown := shown_of_derives .empty scanned read
  obtain ⟨tokens, spelled, document⟩ := shown_tree_is_document_iff shown
  rw [scanned] at spelled
  cases spelled
  exact ⟨_, shown, document.mpr (by simp [negativeEighth, value, Binary.IsFinite])⟩

/-- The literal of the thirty-ninth power of ten is shown as an infinity. -/
theorem shown_infinity_is_no_document :
    ∃ answer,
      (run .empty true "1000000000000000000000000000000000000000.0").result = .ok (some answer) ∧
      answer.text = "\x7b\n  \"_type\": \"FloatNode\",\n  \"value\": Infinity\n\x7d" ∧
      ¬Json.IsDocument answer.text.toList := by
  have scanned : Token.scan "1000000000000000000000000000000000000000.0"
      = .ok [⟨.real, "1000000000000000000000000000000000000000.0", 1⟩] := by decide +kernel
  have value : Token.real? ⟨.real, "1000000000000000000000000000000000000000.0", 1⟩
      = some (.infinity false) := by decide +kernel
  have shown := shown_of_derives .empty scanned (Derives.real rfl value).toAssignment
  refine ⟨_, shown, rfl, ?_⟩
  rw [Answer.text, Expr.isDocument_json_iff (e := .real (.infinity false))
    (rfl : Format.double.round (.infinity false) = .infinity false)]
  exact id

end Statement

end Calculator
