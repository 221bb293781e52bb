import Calculator.Proofs.Token.Words
import Mathlib.Data.List.Chain

/-!
# Gaps between words

Words are written one after the other, with a gap of blanks behind each. A gap may be empty
unless the next word would go on with the one before it: digits go on with a name or a numeral,
and one name goes on with another. No symbol goes on with anything, and no word begins with a
point.

## Main result

`scan_undoes_writing`: the scanner finds the words of such a text again, each at its column.

## Proof strategy

By induction on the words. What follows a word is a blank, the first character of the next word,
or nothing, and none of them can continue it.
-/

namespace Calculator

structure Piece where
  word : Word
  gap : String
  deriving DecidableEq, Repr

/-- The second word goes on with the first one where no blank stands between them. -/
def Word.Fuses (left right : Word) : Prop :=
  (left.kind ∈ [.letWord, .identifier, .integer, .real] ∧
    ∃ c rest, right.text.toList = c :: rest ∧ Token.isDigit c = true) ∨
  (left.kind ∈ [.letWord, .identifier] ∧ right.kind ∈ [.letWord, .identifier])

def IsGap (gap : String) : Prop :=
  ∀ c ∈ gap.toList, Text.isBlank c = true

namespace Piece

def text (piece : Piece) : String :=
  piece.word.text ++ piece.gap

def written (lead : String) (pieces : List Piece) : String :=
  lead ++ String.join (pieces.map text)

/-- The tokens of pieces of which the first one stands in the given column. -/
def tokensFrom (column : Nat) : List Piece → List Token
  | [] => []
  | piece :: rest =>
    ⟨piece.word.kind, piece.word.text, column⟩ :: tokensFrom (column + piece.text.length) rest

private theorem map_word_tokensFrom (column : Nat) (pieces : List Piece) :
    (tokensFrom column pieces).map Token.word = pieces.map word := by
  induction pieces generalizing column with
  | nil => rfl
  | cons piece rest ih =>
    simp only [tokensFrom, List.map_cons, ih]
    rfl

/-- A token stands behind all that is written before its word. -/
theorem getElem?_tokensFrom (column : Nat) (earlier : List Piece) (piece : Piece)
    (later : List Piece) :
    (tokensFrom column (earlier ++ piece :: later))[earlier.length]?
      = some ⟨piece.word.kind, piece.word.text,
        (column + (String.join (earlier.map text)).length : Nat)⟩ := by
  induction earlier generalizing column with
  | nil => simp [tokensFrom, String.join]
  | cons first rest ih =>
    have width : (String.join ((first :: rest).map text)).length
        = first.text.length + (String.join (rest.map text)).length := by
      simp [← String.length_toList]
    simp only [List.cons_append, tokensFrom, List.length_cons, List.getElem?_cons_succ, ih, width,
      Nat.add_assoc]

end Piece

namespace Token

/-! ### What follows a word -/

/-- A blank is part of no word. -/
private theorem continues_eq_false_of_isBlank {c : Char} (blank : Text.isBlank c = true)
    (kind : TokenKind) : kind.continues c = false := by
  have noDigit : isDigit c = false := by
    by_contra digit
    have matching : TokenKind.integer.Matches [c] := ⟨by simp, by simpa using digit⟩
    simp [isBlank_eq_false_of_matches matching] at blank
  have noLetter : isLetter c = false := by
    by_contra letter
    obtain ⟨other, matching⟩ := exists_of_spellsName ⟨c, [], rfl, by simpa using letter, nofun⟩
    simp [isBlank_eq_false_of_matches matching] at blank
  have noPoint : c ≠ '.' := by
    rintro rfl
    exact absurd blank (by decide)
  cases kind <;> simp [TokenKind.continues, isNameChar, noDigit, noLetter, noPoint]

/-- What begins with a letter is a name or the keyword. -/
private theorem kind_of_isLetter {kind : TokenKind} {c : Char} {rest : List Char}
    (matching : kind.Matches (c :: rest)) (letter : isLetter c = true) :
    kind ∈ [.letWord, .identifier] := by
  have noDigit := isDigit_eq_false_of_isLetter letter
  cases kind with
  | letWord | identifier => simp
  | integer =>
    have digit := matching.2 c List.mem_cons_self
    simp [noDigit] at digit
  | real =>
    obtain ⟨whole, fraction, split, nonempty, digits, _⟩ := matching
    obtain ⟨d, others, rfl⟩ := List.exists_cons_of_ne_nil nonempty
    cases split
    simp [noDigit] at digits
  | plus | minus | star | slash | caret | equals | leftParen | rightParen =>
    obtain ⟨d, split, symbol⟩ := matching
    cases split
    simp [(plain_of_symbol? symbol).2] at letter

/-- Words that do not fuse stay apart without a gap. -/
theorem continues_eq_false_of_not_fuses {left right : Word} {c : Char} {rest : List Char}
    (legal : right.IsLegal) (first : right.text.toList = c :: rest) (apart : ¬left.Fuses right) :
    left.kind.continues c = false := by
  have matching := legal.matching
  rw [first] at matching
  have noPoint : c ≠ '.' := by
    rintro rfl
    obtain ⟨_, _, equal, begins⟩ := matching.exists_first
    cases equal
    -- A point is neither a digit nor a letter nor a symbol.
    rcases begins with digit | letter | ⟨symbol, _⟩
    · exact absurd digit (by decide)
    · exact absurd letter (by decide)
    · cases symbol
  apply Bool.eq_false_iff.mpr
  intro goesOn
  apply apart
  cases kind : left.kind with
  | integer | real =>
    have digit : isDigit c = true := by
      simpa [kind, TokenKind.continues, noPoint] using goesOn
    exact .inl ⟨by simp [kind], c, rest, first, digit⟩
  | identifier | letWord =>
    have inside : isLetter c = true ∨ isDigit c = true := by
      simpa [kind, TokenKind.continues, isNameChar] using goesOn
    rcases inside with letter | digit
    · exact .inr ⟨by simp [kind], kind_of_isLetter matching letter⟩
    · exact .inl ⟨by simp [kind], c, rest, first, digit⟩
  | plus | minus | star | slash | caret | equals | leftParen | rightParen =>
    simp [kind, TokenKind.continues] at goesOn

/-! ### Whole texts -/

private theorem scanFrom_gap {gap : List Char} (blank : ∀ c ∈ gap, Text.isBlank c = true)
    (column : Nat) (rest : List Char) :
    scanFrom column (gap ++ rest) = scanFrom (column + gap.length) rest := by
  induction gap generalizing column with
  | nil => rfl
  | cons c gap ih =>
    have others := ih (fun d member => blank d (List.mem_cons_of_mem c member)) (column + 1)
    rw [List.cons_append, scanFrom_blank (blank c List.mem_cons_self), others, List.length_cons]
    congr 1
    omega

private theorem scanFrom_pieces {pieces : List Piece} (legal : ∀ piece ∈ pieces, piece.word.IsLegal)
    (gaps : ∀ piece ∈ pieces, IsGap piece.gap)
    (apart : pieces.IsChain fun left right => left.gap = "" → ¬left.word.Fuses right.word)
    (column : Nat) :
    scanFrom column (pieces.flatMap fun piece => piece.text.toList)
      = .ok (Piece.tokensFrom column pieces) := by
  induction pieces generalizing column with
  | nil => exact scanFrom_nil column
  | cons piece rest ih =>
    have stops : ∀ c,
        (piece.gap.toList ++ rest.flatMap fun piece => piece.text.toList).head? = some c →
          piece.word.kind.continues c = false := by
      intro c head
      cases gap : piece.gap.toList with
      | cons d others =>
        have blank := gaps piece List.mem_cons_self d (by simp [gap])
        obtain rfl : d = c := by simpa [gap] using head
        exact continues_eq_false_of_isBlank blank _
      | nil =>
        -- Without a gap the next word follows, if there is one.
        cases rest with
        | nil => simp [gap] at head
        | cons next others =>
          have legalNext := legal next (by simp)
          obtain ⟨d, tail, first⟩ := List.exists_cons_of_ne_nil legalNext.matching.ne_nil
          obtain rfl : d = c := by simpa [gap, Piece.text, first] using head
          have separate := (List.isChain_cons_cons.mp apart).1 (String.toList_eq_nil_iff.mp gap)
          exact continues_eq_false_of_not_fuses legalNext first separate
    have scanned := ih (fun other member => legal other (List.mem_cons_of_mem piece member))
      (fun other member => gaps other (List.mem_cons_of_mem piece member)) apart.tail
      (column + piece.text.length)
    have width : column + piece.text.length
        = column + piece.word.text.length + piece.gap.toList.length := by
      simp [Piece.text, Nat.add_assoc, String.length_toList]
    rw [List.flatMap_cons, Piece.text, String.toList_append, List.append_assoc,
      scanFrom_word (legal piece List.mem_cons_self) stops,
      scanFrom_gap (gaps piece List.mem_cons_self), ← width, scanned]
    rfl

/-- Words with gaps between them are scanned as themselves. A gap may be empty unless the words
beside it fuse; each token stands in the column behind all that is written before it. -/
theorem scan_undoes_writing {lead : String} {pieces : List Piece} (blank : IsGap lead)
    (legal : ∀ piece ∈ pieces, piece.word.IsLegal) (gaps : ∀ piece ∈ pieces, IsGap piece.gap)
    (apart : pieces.IsChain fun left right => left.gap = "" → ¬left.word.Fuses right.word) :
    ∃ tokens, scan (Piece.written lead pieces) = .ok tokens ∧
      tokens.map word = pieces.map Piece.word ∧
      ∀ earlier piece later, pieces = earlier ++ piece :: later →
        tokens[earlier.length]? = some ⟨piece.word.kind, piece.word.text,
          (1 + (Piece.written lead earlier).length : Nat)⟩ := by
  refine ⟨Piece.tokensFrom (1 + lead.length) pieces, ?_, Piece.map_word_tokensFrom _ _, ?_⟩
  · have whole : (Piece.written lead pieces).toList
        = lead.toList ++ pieces.flatMap fun piece => piece.text.toList := by
      simp [Piece.written, List.flatMap_map]
    rw [scan, whole, scanFrom_gap blank, String.length_toList]
    exact scanFrom_pieces legal gaps apart _
  · rintro earlier piece later rfl
    rw [Piece.getElem?_tokensFrom, Piece.written, String.length_append, Nat.add_assoc]

/-- The largest magnitude beside a name, the keyword with a longer name behind it, and a numeral
that ends with its point. -/
def tightPieces : List Piece :=
  [⟨⟨.integer, "2147483648"⟩, ""⟩, ⟨⟨.identifier, "e5"⟩, " "⟩, ⟨⟨.letWord, "let"⟩, "\n\t"⟩,
   ⟨⟨.identifier, "lets"⟩, ""⟩, ⟨⟨.caret, "^"⟩, ""⟩, ⟨⟨.real, "1."⟩, ""⟩,
   ⟨⟨.identifier, "_"⟩, "\u3000"⟩]

theorem tightPieces_are_scanned :
    ∃ tokens, scan " 2147483648e5 let\n\tlets^1._\u3000" = .ok tokens ∧
      tokens.map word = tightPieces.map Piece.word ∧
      tokens[6]? = some ⟨.identifier, "_", 27⟩ := by
  have legal : ∀ piece ∈ tightPieces, piece.word.IsLegal := by
    simp only [tightPieces, List.forall_mem_cons]
    refine ⟨⟨⟨by simp, by simp [isDigit]⟩, fun _ => by decide +kernel⟩, ?_, ?_, ?_, ?_, ?_, ?_,
      by simp⟩
    all_goals apply Word.isLegal_of_matches _ (by decide)
    · exact ⟨⟨'e', ['5'], by simp, rfl, by simp [isNameChar, isDigit]⟩, by simp⟩
    · rfl
    · exact ⟨⟨'l', ['e', 't', 's'], by simp, rfl, by simp [isNameChar, isLetter]⟩, by simp⟩
    · exact ⟨'^', by simp, rfl⟩
    · exact ⟨['1'], [], by simp, by simp, by simp [isDigit], by simp⟩
    · exact ⟨⟨'_', [], by simp, rfl, by simp⟩, by simp⟩
  have blank : IsGap " " := by
    simp [IsGap, Text.isBlank, Text.blankRanges]
  have gaps : ∀ piece ∈ tightPieces, IsGap piece.gap := by
    simp [tightPieces, IsGap, Text.isBlank, Text.blankRanges]
  have apart : tightPieces.IsChain fun left right =>
      left.gap = "" → ¬left.word.Fuses right.word := by
    simp [tightPieces, Word.Fuses, isDigit]
  obtain ⟨tokens, scanned, words, places⟩ := scan_undoes_writing blank legal gaps apart
  have text : Piece.written " " tightPieces = " 2147483648e5 let\n\tlets^1._\u3000" := by
    decide +kernel
  have before : (Piece.written " " (tightPieces.take 6)).length = 26 := by decide +kernel
  have last := places (tightPieces.take 6) ⟨⟨.identifier, "_"⟩, "\u3000"⟩ [] rfl
  rw [before] at last
  exact ⟨tokens, text ▸ scanned, words, last⟩

end Token

end Calculator
