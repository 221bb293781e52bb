import Calculator.Proofs.Token.Lexical

/-!
# The patterns of tokens

Each kind of token has a pattern, and no text matches the patterns of two kinds. The scanner
takes the longest text at the front that matches any pattern: a point after digits belongs to
the numeral, a name goes on as long as it can, and a symbol stands for itself.

## Main results

- `lexeme?_eq_some_iff`, `lexeme?_eq_none_iff`: the lexeme is the longest match, if there is one.
- `lexeme?_append`: a text that matches a pattern is the lexeme before anything that cannot
  continue it.
-/

namespace Calculator

/-- A name begins with a letter and goes on with letters and digits. -/
def Token.SpellsName (text : List Char) : Prop :=
  ∃ first rest, text = first :: rest ∧ isLetter first = true ∧ ∀ c ∈ rest, isNameChar c = true

/-- The pattern of a kind. -/
def TokenKind.Matches : TokenKind → List Char → Prop
  | integer, text => text ≠ [] ∧ ∀ c ∈ text, Token.isDigit c = true
  | real, text => ∃ whole fraction, text = whole ++ '.' :: fraction ∧ whole ≠ [] ∧
      (∀ c ∈ whole, Token.isDigit c = true) ∧ ∀ c ∈ fraction, Token.isDigit c = true
  | identifier, text => Token.SpellsName text ∧ text ≠ ['l', 'e', 't']
  | letWord, text => text = ['l', 'e', 't']
  | kind, text => ∃ c, text = [c] ∧ Token.symbol? c = some kind

/-- The characters with which a text of a kind can go on. -/
def TokenKind.continues : TokenKind → Char → Bool
  | integer, c => Token.isDigit c || c == '.'
  | real, c => Token.isDigit c
  | identifier, c | letWord, c => Token.isNameChar c
  | _, _ => false

namespace Token

/-- The text is the longest one at the front that matches any pattern, and its own is that of the
kind. -/
structure IsLongest (kind : TokenKind) (text s : List Char) : Prop where
  matching : kind.Matches text
  front : text <+: s
  longest : ∀ (other : TokenKind) longer, other.Matches longer → longer <+: s →
    longer.length ≤ text.length

/-! ### First characters -/

theorem isDigit_eq_false_of_isLetter {c : Char} (letter : isLetter c = true) :
    isDigit c = false := by
  simp only [isLetter, Bool.or_eq_true, Bool.and_eq_true, decide_eq_true_eq,
    beq_iff_eq] at letter
  rcases letter with (⟨above, _⟩ | ⟨above, _⟩) | rfl
  · simp only [isDigit, Bool.and_eq_false_imp, decide_eq_true_eq, decide_eq_false_iff_not]
    intro _ below
    exact absurd (Char.le_trans above below) (by decide)
  · simp only [isDigit, Bool.and_eq_false_imp, decide_eq_true_eq, decide_eq_false_iff_not]
    intro _ below
    exact absurd (Char.le_trans above below) (by decide)
  · decide

theorem plain_of_symbol? {c : Char} {kind : TokenKind} (symbol : symbol? c = some kind) :
    isDigit c = false ∧ isLetter c = false := by
  unfold symbol? at symbol
  split at symbol
  all_goals first | decide | cases symbol

/-- The kinds of symbols are those without a pattern of their own. -/
private theorem matches_of_symbol? {c : Char} {kind : TokenKind} (symbol : symbol? c = some kind) :
    kind.Matches [c] := by
  unfold symbol? at symbol
  split at symbol
  all_goals first | (cases symbol; exact ⟨_, rfl, rfl⟩) | cases symbol

private theorem SpellsName.extend {text : List Char} {c : Char} (name : SpellsName text)
    (goesOn : isNameChar c = true) : SpellsName (text ++ [c]) := by
  obtain ⟨first, rest, rfl, letter, inside⟩ := name
  refine ⟨first, rest ++ [c], rfl, letter, ?_⟩
  intro d member
  rcases List.mem_append.mp member with earlier | last
  · exact inside d earlier
  · rw [List.mem_singleton.mp last]
    exact goesOn

theorem exists_of_spellsName {text : List Char} (name : SpellsName text) :
    ∃ kind : TokenKind, kind.Matches text := by
  by_cases keyword : text = ['l', 'e', 't']
  · exact ⟨.letWord, keyword⟩
  · exact ⟨.identifier, name, keyword⟩

end Token

open Token

namespace TokenKind.Matches

variable {kind : TokenKind} {text : List Char}

theorem exists_first (matching : kind.Matches text) :
    ∃ c rest, text = c :: rest ∧
      (isDigit c = true ∨ isLetter c = true ∨ (symbol? c = some kind ∧ rest = [])) := by
  cases kind with
  | integer =>
    obtain ⟨nonempty, digits⟩ := matching
    obtain ⟨c, rest, rfl⟩ := List.exists_cons_of_ne_nil nonempty
    exact ⟨c, rest, rfl, .inl (digits c List.mem_cons_self)⟩
  | real =>
    obtain ⟨whole, fraction, rfl, nonempty, digits, _⟩ := matching
    obtain ⟨c, rest, rfl⟩ := List.exists_cons_of_ne_nil nonempty
    exact ⟨c, rest ++ '.' :: fraction, rfl, .inl (digits c List.mem_cons_self)⟩
  | identifier =>
    obtain ⟨⟨c, rest, rfl, letter, _⟩, _⟩ := matching
    exact ⟨c, rest, rfl, .inr (.inl letter)⟩
  | letWord =>
    cases matching
    exact ⟨'l', ['e', 't'], rfl, .inr (.inl (by decide))⟩
  | plus | minus | star | slash | caret | equals | leftParen | rightParen =>
    obtain ⟨c, rfl, symbol⟩ := matching
    exact ⟨c, [], rfl, .inr (.inr ⟨symbol, rfl⟩)⟩

theorem ne_nil (matching : kind.Matches text) : text ≠ [] := by
  obtain ⟨c, rest, rfl, _⟩ := matching.exists_first
  exact List.cons_ne_nil c rest

theorem isLexical {token : Token} (matching : token.kind.Matches token.text.toList) :
    token.IsLexical := by
  unfold Token.IsLexical
  cases kind : token.kind with
  | integer | real =>
    rw [kind] at matching
    exact matching
  | identifier | letWord | plus | minus | star | slash | caret | equals | leftParen
  | rightParen => trivial

end TokenKind.Matches

namespace Token

/-! ### What stops a text -/

private theorem takeWhile_append_of_stop {p : Char → Bool} {run rest : List Char}
    (inside : ∀ c ∈ run, p c = true) (stops : ∀ c, rest.head? = some c → p c = false) :
    (run ++ rest).takeWhile p = run ∧ (run ++ rest).dropWhile p = rest := by
  rw [List.takeWhile_append_of_pos inside, List.dropWhile_append_of_pos inside]
  cases rest with
  | nil => simp
  | cons c tail => simp [stops c rfl]

private theorem nameKind_eq {text : List Char} (different : text ≠ ['l', 'e', 't']) :
    nameKind text = .identifier :=
  if_neg different

/-- A text that matches a pattern is the lexeme before anything that cannot continue it. -/
theorem lexeme?_append {kind : TokenKind} {text rest : List Char} (matching : kind.Matches text)
    (stops : ∀ c, rest.head? = some c → kind.continues c = false) :
    lexeme? (text ++ rest) = some ⟨kind, text, rest⟩ := by
  cases kind with
  | integer =>
    obtain ⟨nonempty, digits⟩ := matching
    obtain ⟨c, tail, rfl⟩ := List.exists_cons_of_ne_nil nonempty
    obtain ⟨taken, dropped⟩ := takeWhile_append_of_stop
      (fun d member => digits d (List.mem_cons_of_mem c member))
      (fun d head => (Bool.or_eq_false_iff.mp (stops d head)).1)
    -- A point behind the digits would begin a fraction.
    have noPoint : ∀ fraction, rest ≠ '.' :: fraction := by
      rintro fraction rfl
      exact absurd (stops '.' rfl) (by decide)
    simp only [List.cons_append, lexeme?, if_pos (digits c List.mem_cons_self), taken, dropped]
  | real =>
    obtain ⟨whole, fraction, rfl, nonempty, digits, fractionDigits⟩ := matching
    obtain ⟨c, tail, rfl⟩ := List.exists_cons_of_ne_nil nonempty
    obtain ⟨taken, dropped⟩ := takeWhile_digits
      (fun d member => digits d (List.mem_cons_of_mem c member)) (fraction ++ rest)
    obtain ⟨fractionTaken, fractionDropped⟩ := takeWhile_append_of_stop fractionDigits stops
    simp only [List.cons_append, List.append_assoc, lexeme?,
      if_pos (digits c List.mem_cons_self), taken, dropped, fractionTaken, fractionDropped]
  | identifier =>
    obtain ⟨⟨c, tail, rfl, letter, name⟩, different⟩ := matching
    obtain ⟨taken, dropped⟩ := takeWhile_append_of_stop name stops
    simp only [List.cons_append, lexeme?, isDigit_eq_false_of_isLetter letter, letter, taken,
      dropped, nameKind_eq different, Bool.false_eq_true, if_false, if_true]
  | letWord =>
    cases matching
    have name : ∀ c ∈ ['e', 't'], isNameChar c = true := List.all_eq_true.mp rfl
    obtain ⟨taken, dropped⟩ := takeWhile_append_of_stop name stops
    have letter : isLetter 'l' = true := by decide
    simp only [List.cons_append, List.nil_append] at taken dropped
    simp only [List.cons_append, List.nil_append, lexeme?, isDigit_eq_false_of_isLetter letter,
      letter, taken, dropped, Bool.false_eq_true, if_false, if_true]
    rfl
  | plus | minus | star | slash | caret | equals | leftParen | rightParen =>
    obtain ⟨c, rfl, symbol⟩ := matching
    obtain ⟨noDigit, noLetter⟩ := plain_of_symbol? symbol
    simp only [List.cons_append, List.nil_append, lexeme?, noDigit, noLetter, symbol,
      Bool.false_eq_true, if_false, Option.map_some]

theorem kind_unique {kind other : TokenKind} {text : List Char} (first : kind.Matches text)
    (second : other.Matches text) : kind = other := by
  -- Both kinds are that of the lexeme of the text alone.
  have one : lexeme? (text ++ []) = some ⟨kind, text, []⟩ := lexeme?_append first nofun
  have two : lexeme? (text ++ []) = some ⟨other, text, []⟩ := lexeme?_append second nofun
  rw [one] at two
  cases two
  rfl

theorem letWord_iff {token : Token} (matching : token.kind.Matches token.text.toList) :
    token.kind = .letWord ↔ token.text = "let" := by
  constructor
  · intro kind
    rw [kind] at matching
    exact String.toList_inj.mp matching
  · intro keyword
    rw [keyword] at matching
    have letters : TokenKind.letWord.Matches "let".toList := rfl
    exact kind_unique matching letters

/-! ### The longest match -/

/-- What the scanner takes matches the pattern of its kind. -/
theorem matches_of_lexeme? {s : List Char} {lexeme : Lexeme} (found : lexeme? s = some lexeme) :
    lexeme.kind.Matches lexeme.text ∧ s = lexeme.text ++ lexeme.rest := by
  cases s with
  | nil => cases found
  | cons c tail =>
    -- The first character decides between a numeral, a name and a symbol.
    simp only [lexeme?] at found
    split at found
    · next digit =>
      have digits : ∀ d ∈ c :: tail.takeWhile isDigit, isDigit d = true := by
        intro d member
        rcases List.mem_cons.mp member with rfl | later
        · exact digit
        · exact List.mem_takeWhile_imp later
      split at found
      · next fraction point =>
        cases found
        refine ⟨⟨_, _, rfl, List.cons_ne_nil _ _, digits, ?_⟩, ?_⟩
        · exact fun d member => List.mem_takeWhile_imp member
        · rw [List.append_assoc, List.cons_append, List.cons_append,
            List.takeWhile_append_dropWhile, ← point, List.takeWhile_append_dropWhile]
      · cases found
        exact ⟨⟨List.cons_ne_nil _ _, digits⟩, by simp⟩
    · split at found
      · next letter =>
        cases found
        refine ⟨?_, by simp⟩
        simp only [nameKind]
        split
        · next keyword => exact keyword
        · next different =>
          exact ⟨⟨c, _, rfl, letter, fun d member => List.mem_takeWhile_imp member⟩, different⟩
      · obtain ⟨kind, symbol, rfl⟩ := Option.map_eq_some_iff.mp found
        exact ⟨matches_of_symbol? symbol, rfl⟩

end Token

/-- A text of a kind that goes on is a text of a kind again: digits with a point become a real,
and the keyword with more letters a name. -/
theorem TokenKind.Matches.extend {kind : TokenKind} {text : List Char} {c : Char}
    (matching : kind.Matches text) (goesOn : kind.continues c = true) :
    ∃ other : TokenKind, other.Matches (text ++ [c]) := by
  cases kind with
  | integer =>
    obtain ⟨nonempty, digits⟩ := matching
    rcases Bool.or_eq_true_iff.mp goesOn with digit | point
    · refine ⟨.integer, by simp, ?_⟩
      intro d member
      rcases List.mem_append.mp member with inside | last
      · exact digits d inside
      · rw [List.mem_singleton.mp last]
        exact digit
    · cases beq_iff_eq.mp point
      exact ⟨.real, text, [], rfl, nonempty, digits, nofun⟩
  | real =>
    obtain ⟨whole, fraction, rfl, nonempty, digits, fractionDigits⟩ := matching
    refine ⟨.real, whole, fraction ++ [c], by simp, nonempty, digits, ?_⟩
    intro d member
    rcases List.mem_append.mp member with inside | last
    · exact fractionDigits d inside
    · rw [List.mem_singleton.mp last]
      exact goesOn
  | identifier =>
    obtain ⟨name, _⟩ := matching
    exact exists_of_spellsName (name.extend goesOn)
  | letWord =>
    cases matching
    have name : SpellsName ['l', 'e', 't'] :=
      ⟨'l', ['e', 't'], rfl, rfl, List.all_eq_true.mp rfl⟩
    exact exists_of_spellsName (name.extend goesOn)
  | plus | minus | star | slash | caret | equals | leftParen | rightParen => cases goesOn

namespace Token

/-- A text that matches a pattern is at the front of the lexeme there. -/
theorem exists_lexeme_of_matches {kind : TokenKind} {text : List Char}
    (matching : kind.Matches text) (rest : List Char) :
    ∃ lexeme, lexeme? (text ++ rest) = some lexeme ∧ text.length ≤ lexeme.text.length := by
  -- The text grows by the characters that can continue it, and may change its kind by that.
  induction rest generalizing kind text with
  | nil => exact ⟨_, lexeme?_append matching nofun, Nat.le_refl _⟩
  | cons c rest ih =>
    cases goesOn : kind.continues c with
    | false =>
      refine ⟨_, lexeme?_append matching ?_, Nat.le_refl _⟩
      intro d head
      cases head
      exact goesOn
    | true =>
      obtain ⟨other, extended⟩ := matching.extend goesOn
      obtain ⟨lexeme, found, longer⟩ := ih extended
      rw [List.append_assoc, List.singleton_append] at found
      refine ⟨lexeme, found, Nat.le_trans ?_ longer⟩
      simp

theorem isLongest_of_lexeme? {s : List Char} {lexeme : Lexeme} (found : lexeme? s = some lexeme) :
    IsLongest lexeme.kind lexeme.text s := by
  obtain ⟨matching, split⟩ := matches_of_lexeme? found
  refine ⟨matching, ⟨lexeme.rest, split.symm⟩, ?_⟩
  rintro other longer matching ⟨rest, rfl⟩
  obtain ⟨same, again, le⟩ := exists_lexeme_of_matches matching rest
  rw [found] at again
  cases again
  exact le

/-- What follows the longest match cannot continue it. -/
theorem IsLongest.stops {kind : TokenKind} {text rest : List Char} {c : Char}
    (longest : IsLongest kind text (text ++ rest)) (head : rest.head? = some c) :
    kind.continues c = false := by
  -- Otherwise the text with one more character would match, and be longer.
  apply Bool.eq_false_iff.mpr
  intro goesOn
  obtain ⟨tail, rfl⟩ := List.head?_eq_some_iff.mp head
  obtain ⟨other, matching⟩ := longest.matching.extend goesOn
  have front : text ++ [c] <+: text ++ c :: tail := by simp
  have le := longest.longest other (text ++ [c]) matching front
  rw [List.length_append, List.length_singleton] at le
  omega

theorem lexeme?_eq_none_iff {s : List Char} :
    lexeme? s = none ↔ ∀ (kind : TokenKind) text, kind.Matches text → ¬text <+: s := by
  constructor
  · rintro none kind text matching ⟨rest, rfl⟩
    obtain ⟨lexeme, found, _⟩ := exists_lexeme_of_matches matching rest
    rw [none] at found
    cases found
  · intro unmatched
    cases found : lexeme? s with
    | none => rfl
    | some lexeme =>
      have longest := isLongest_of_lexeme? found
      exact absurd longest.front (unmatched lexeme.kind lexeme.text longest.matching)

/-- The lexeme is the longest match of any pattern. -/
theorem lexeme?_eq_some_iff {kind : TokenKind} {text s rest : List Char} :
    lexeme? s = some ⟨kind, text, rest⟩ ↔ IsLongest kind text s ∧ s = text ++ rest := by
  constructor
  · intro found
    exact ⟨isLongest_of_lexeme? found, (matches_of_lexeme? found).2⟩
  · rintro ⟨longest, rfl⟩
    obtain ⟨lexeme, found, le⟩ := exists_lexeme_of_matches longest.matching rest
    obtain ⟨matching, split⟩ := matches_of_lexeme? found
    have front : lexeme.text <+: text ++ rest := ⟨lexeme.rest, split.symm⟩
    have equal : text.length = lexeme.text.length :=
      Nat.le_antisymm le (longest.longest _ _ matching front)
    obtain ⟨sameText, sameRest⟩ := List.append_inj split equal
    obtain ⟨otherKind, otherText, otherRest⟩ := lexeme
    subst sameText sameRest
    rw [found, kind_unique longest.matching matching]

end Token

end Calculator
