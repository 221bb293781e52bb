import Calculator.Number
import Calculator.Proofs.Token.Cutting

/-!
# Words

A word is a token without its column. The scanner finds a word wherever nothing behind it can
continue it; in particular it finds all words of a text in which a blank stands between any two.
-/

namespace Calculator

structure Word where
  kind : TokenKind
  text : String
  deriving DecidableEq, Repr

def Token.word (token : Token) : Word :=
  ⟨token.kind, token.text⟩

namespace Word

def spaced (words : List Word) : String :=
  " ".intercalate (words.map text)

/-- The spelling matches the pattern of the kind, and an integer is not too large. -/
structure IsLegal (word : Word) : Prop where
  matching : word.kind.Matches word.text.toList
  bounded : word.kind = .integer →
    Token.digitsValue word.text.toList ≤ Token.largestMagnitude

theorem isLegal_of_matches {kind : TokenKind} {text : String}
    (matching : kind.Matches text.toList) (other : kind ≠ .integer) : IsLegal ⟨kind, text⟩ where
  matching := matching
  bounded := fun integer => absurd integer other

/-! ### Literals -/

theorem toList_integerText (n : Nat) : (integerText n).toList = Nat.toDigits 10 n := by
  simp [integerText]

theorem matches_integerText (n : Nat) : TokenKind.integer.Matches (integerText n).toList := by
  rw [toList_integerText]
  exact ⟨Nat.toDigits_ne_nil, fun _ member => Token.isDigit_of_mem_toDigits member⟩

theorem isLegal_integer {n : Nat} (range : n ≤ Token.largestMagnitude) :
    IsLegal ⟨.integer, integerText n⟩ where
  matching := matches_integerText n
  bounded := by
    intro _
    rw [toList_integerText, Token.digitsValue_toDigits]
    exact range

end Word

namespace Token

theorem integer?_of_word {token : Token} {n : Nat} (same : token.word = ⟨.integer, integerText n⟩) :
    token.integer? = some (n : Int) := by
  have kind : token.kind = .integer := congrArg Word.kind same
  have text : token.text = integerText n := congrArg Word.text same
  have lexical : token.IsLexical := by
    apply TokenKind.Matches.isLexical
    rw [kind, text]
    exact Word.matches_integerText n
  rw [integer?_of_isLexical lexical kind, text, Word.toList_integerText, digitsValue_toDigits]

theorem real?_of_word {token : Token} {text : String} (same : token.word = ⟨.real, text⟩) :
    token.real? = real? ⟨.real, text, 1⟩ := by
  have spelled : token.text = text := congrArg Word.text same
  rw [real?, spelled, real?]

/-- A word is found before anything that cannot continue it. -/
theorem scanFrom_word {word : Word} (legal : word.IsLegal) {rest : List Char}
    (stops : ∀ c, rest.head? = some c → word.kind.continues c = false) (column : Nat) :
    scanFrom column (word.text.toList ++ rest) =
      (scanFrom (column + word.text.length) rest).map (⟨word.kind, word.text, column⟩ :: ·) := by
  have longest := isLongest_of_lexeme? (lexeme?_append legal.matching stops)
  have scanned := scanFrom_token longest legal.bounded column
  rw [String.ofList_toList, String.length_toList] at scanned
  exact scanned

theorem scanFrom_lastWord {word : Word} (legal : word.IsLegal) (column : Nat) :
    scanFrom column word.text.toList = .ok [⟨word.kind, word.text, column⟩] := by
  have alone : ∀ c, ([] : List Char).head? = some c → word.kind.continues c = false := nofun
  have scanned := scanFrom_word legal alone column
  rw [List.append_nil, scanFrom_nil] at scanned
  exact scanned

private theorem continues_blank (kind : TokenKind) : kind.continues ' ' = false := by
  cases kind <;> decide

private theorem exists_scanFrom_spaced {words : List Word} (legal : ∀ word ∈ words, word.IsLegal)
    (column : Nat) : ∃ tokens, scanFrom column (Word.spaced words).toList = .ok tokens ∧
      tokens.map word = words := by
  induction words generalizing column with
  | nil => exact ⟨[], scanFrom_nil column, rfl⟩
  | cons first others ih =>
    have legalFirst := legal first List.mem_cons_self
    cases others with
    | nil =>
      refine ⟨[⟨first.kind, first.text, column⟩], ?_, rfl⟩
      rw [Word.spaced, List.map_singleton, String.intercalate_singleton]
      exact scanFrom_lastWord legalFirst column
    | cons second others =>
      obtain ⟨tokens, scanned, same⟩ := ih (fun word member => legal word
        (List.mem_cons_of_mem first member)) (column + first.text.length + 1)
      refine ⟨⟨first.kind, first.text, column⟩ :: tokens, ?_, ?_⟩
      · -- The blank ends the first word and belongs to no other.
        have text : (Word.spaced (first :: second :: others)).toList
            = first.text.toList ++ ' ' :: (Word.spaced (second :: others)).toList := by
          simp [Word.spaced, String.intercalate_cons_cons]
        have stops : ∀ c, (' ' :: (Word.spaced (second :: others)).toList).head? = some c →
            first.kind.continues c = false := by
          intro c head
          cases head
          exact continues_blank first.kind
        have blank : Text.isBlank ' ' = true := by decide
        rw [text, scanFrom_word legalFirst stops, scanFrom_blank blank, scanned]
        rfl
      · rw [List.map_cons, same]
        rfl

/-- Words with blanks between them are scanned as themselves. -/
theorem exists_scan_spaced {words : List Word} (legal : ∀ word ∈ words, word.IsLegal) :
    ∃ tokens, scan (Word.spaced words) = .ok tokens ∧ tokens.map word = words :=
  exists_scanFrom_spaced legal 1

end Token

end Calculator
