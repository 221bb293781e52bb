import Calculator.Proofs.Token.Digits
import Calculator.Proofs.Token.Patterns

/-!
# Cutting a text into tokens

A text is cut up to a position if tokens stand in it one after the other, each spelled as the text
reads at its column and each as long as any pattern allows there, with nothing but blanks between
them, and no integer among them exceeds the largest magnitude. The tokens of a text cut it to its
end. A text without tokens is cut up to a fault: a character with which no token begins, or an
integer that is too large.

## Main result

`scan_cuts_into_longest_tokens`: the scanner answers with the tokens that cut the text to its end,
or with the first fault.

## Proof strategy

Cutting from a position on is described with that position as a parameter, so that one step of
the scanner moves it over a blank or over one token. Scanned tokens cut the text by the recursion
of the scanner; conversely a cut leads the scanner to its end by the length that is left.
-/

namespace Calculator.Token

def start (token : Token) : Nat :=
  (token.column - 1).toNat

def stop (token : Token) : Nat :=
  token.start + token.text.length

/-- The tokens cut the text from one position to another. -/
structure Cuts (source : List Char) (first last : Nat) (tokens : List Token) : Prop where
  forward : first ≤ last
  column : ∀ token ∈ tokens, token.column = token.start + 1
  within : ∀ token ∈ tokens, first ≤ token.start ∧ token.stop ≤ last
  spelled : ∀ token ∈ tokens,
    (source.drop token.start).take token.text.length = token.text.toList
  longest : ∀ token ∈ tokens,
    IsLongest token.kind token.text.toList (source.drop token.start)
  ordered : tokens.Pairwise fun earlier later => earlier.stop ≤ later.start
  blank : ∀ position c, first ≤ position → position < last → source[position]? = some c →
    (∀ token ∈ tokens, ¬(token.start ≤ position ∧ position < token.stop)) →
    Text.isBlank c = true
  bounded : ∀ token ∈ tokens, token.kind = .integer →
    digitsValue token.text.toList ≤ largestMagnitude

/-- What stops the scanner at a position: a visible character with which no token begins, or a
run of digits, with neither a digit nor a point after it, whose value is too large. -/
inductive FaultAt (source : List Char) (position : Nat) : ScanError → Prop
  | unexpectedCharacter {c : Char} (present : source[position]? = some c)
      (visible : Text.isBlank c = false)
      (noToken : ∀ (kind : TokenKind) text, kind.Matches text → ¬text <+: source.drop position) :
      FaultAt source position (.unexpectedCharacter c (position + 1))
  | integerTooLarge {digits rest : List Char} (split : source.drop position = digits ++ rest)
      (run : TokenKind.integer.Matches digits)
      (maximal : ∀ c, rest.head? = some c → isDigit c = false ∧ c ≠ '.')
      (large : largestMagnitude < digitsValue digits) :
      FaultAt source position (.integerTooLarge digits (position + 1))

private theorem FaultAt.column_eq {source : List Char} {position : Nat} {error : ScanError}
    (fault : FaultAt source position error) : error.column = position + 1 := by
  cases fault <;> rfl

private theorem FaultAt.position_lt {source : List Char} {position : Nat} {error : ScanError}
    (fault : FaultAt source position error) : position < source.length := by
  cases fault with
  | unexpectedCharacter present visible noToken =>
    exact (List.getElem?_eq_some_iff.mp present).1
  | integerTooLarge split run maximal large =>
    have length := congrArg List.length split
    have nonempty := List.length_pos_iff.mpr run.1
    rw [List.length_drop, List.length_append] at length
    omega

variable {source : List Char} {first last position : Nat} {token : Token} {tokens : List Token}

/-! ### Blanks -/

private theorem range_of_isBlank {c : Char} (blank : Text.isBlank c = true) :
    c.toNat ≤ 32 ∨ 127 ≤ c.toNat := by
  simp only [Text.isBlank, Text.blankRanges, List.any_cons, List.any_nil, Bool.or_eq_true,
    Bool.and_eq_true, decide_eq_true_eq, Bool.or_false] at blank
  omega

private theorem toNat_range {low high c : Char} (between : low ≤ c ∧ c ≤ high) :
    low.toNat ≤ c.toNat ∧ c.toNat ≤ high.toNat :=
  ⟨UInt32.le_iff_toNat_le.mp between.1, UInt32.le_iff_toNat_le.mp between.2⟩

/-- Neither a digit nor a letter nor a symbol is blank. -/
theorem isBlank_eq_false_of_matches {kind : TokenKind} {c : Char} {rest : List Char}
    (matching : kind.Matches (c :: rest)) : Text.isBlank c = false := by
  apply Bool.eq_false_iff.mpr
  intro blank
  have range := range_of_isBlank blank
  obtain ⟨_, _, equal, begins⟩ := matching.exists_first
  cases equal
  rcases begins with digit | letter | ⟨symbol, _⟩
  · simp only [isDigit, Bool.and_eq_true, decide_eq_true_eq] at digit
    have digits := toNat_range digit
    simp only [Char.reduceToNat] at digits
    omega
  · simp only [isLetter, Bool.or_eq_true, Bool.and_eq_true, decide_eq_true_eq,
      beq_iff_eq] at letter
    rcases letter with (upper | lower) | rfl
    · have letters := toNat_range upper
      simp only [Char.reduceToNat] at letters
      omega
    · have letters := toNat_range lower
      simp only [Char.reduceToNat] at letters
      omega
    · revert range
      decide
  · unfold symbol? at symbol
    split at symbol
    all_goals first | (revert range; decide) | cases symbol

/-! ### One step of the scanner -/

theorem scanFrom_nil (column : Nat) : scanFrom column [] = .ok [] := by
  rw [scanFrom]

theorem scanFrom_blank {c : Char} (blank : Text.isBlank c = true) (column : Nat)
    (tail : List Char) : scanFrom column (c :: tail) = scanFrom (column + 1) tail := by
  rw [scanFrom, if_pos blank]

/-- The lexeme at the front is a token, unless it is an integer that is too large. -/
private theorem scanFrom_lexeme {kind : TokenKind} {text rest : List Char}
    (matching : kind.Matches text) (found : lexeme? (text ++ rest) = some ⟨kind, text, rest⟩)
    (column : Nat) :
    scanFrom column (text ++ rest) =
      if kind = .integer ∧ fitsMagnitude text = false then .error (.integerTooLarge text column)
      else (scanFrom (column + text.length) rest).map
        (⟨kind, String.ofList text, column⟩ :: ·) := by
  obtain ⟨c, tail, rfl, _⟩ := matching.exists_first
  rw [List.cons_append] at found ⊢
  rw [scanFrom, isBlank_eq_false_of_matches matching, if_neg Bool.false_ne_true]
  split
  · next none => rw [found] at none; cases none
  · next lexeme some =>
    rw [found] at some
    cases some
    split
    · rfl
    · cases scanFrom (column + (c :: tail).length) rest <;> rfl

theorem scanFrom_token {kind : TokenKind} {text rest : List Char}
    (longest : IsLongest kind text (text ++ rest))
    (bounded : kind = .integer → digitsValue text ≤ largestMagnitude) (column : Nat) :
    scanFrom column (text ++ rest) =
      (scanFrom (column + text.length) rest).map (⟨kind, String.ofList text, column⟩ :: ·) := by
  have found : lexeme? (text ++ rest) = some ⟨kind, text, rest⟩ :=
    lexeme?_eq_some_iff.mpr ⟨longest, rfl⟩
  have small : ¬(kind = .integer ∧ fitsMagnitude text = false) := by
    rintro ⟨rfl, exceeds⟩
    have fits := (fitsMagnitude_iff longest.matching.2).mpr (bounded rfl)
    rw [fits] at exceeds
    cases exceeds
  rw [scanFrom_lexeme longest.matching found, if_neg small]

private theorem scanFrom_of_faultAt {error : ScanError} (fault : FaultAt source position error) :
    scanFrom (position + 1) (source.drop position) = .error error := by
  cases fault with
  | @unexpectedCharacter c present visible noToken =>
    have none := lexeme?_eq_none_iff.mpr noToken
    obtain ⟨inside, rfl⟩ := List.getElem?_eq_some_iff.mp present
    rw [List.drop_eq_getElem_cons inside] at none ⊢
    rw [scanFrom, visible, if_neg Bool.false_ne_true]
    split
    · rfl
    · next some => rw [none] at some; cases some
  | @integerTooLarge digits rest split run maximal large =>
    have found : lexeme? (digits ++ rest) = some ⟨.integer, digits, rest⟩ := by
      refine lexeme?_append run ?_
      intro c head
      obtain ⟨noDigit, noPoint⟩ := maximal c head
      simp [TokenKind.continues, noDigit, noPoint]
    have exceeds : fitsMagnitude digits = false := by
      apply Bool.eq_false_iff.mpr
      intro fits
      exact absurd ((fitsMagnitude_iff run.2).mp fits) (by omega)
    rw [split, scanFrom_lexeme run found, if_pos ⟨rfl, exceeds⟩]

/-! ### One step of a cut -/

namespace Cuts

theorem nil (source : List Char) (position : Nat) : Cuts source position position [] where
  forward := Nat.le_refl position
  column := nofun
  within := nofun
  spelled := nofun
  longest := nofun
  ordered := List.Pairwise.nil
  blank := by
    intro _ _ above below
    omega
  bounded := nofun

private theorem cons_blank {c : Char} (cut : Cuts source (first + 1) last tokens)
    (present : source[first]? = some c) (blank : Text.isBlank c = true) :
    Cuts source first last tokens where
  forward := Nat.le_of_succ_le cut.forward
  column := cut.column
  within := by
    intro token member
    obtain ⟨above, below⟩ := cut.within token member
    exact ⟨Nat.le_of_succ_le above, below⟩
  spelled := cut.spelled
  longest := cut.longest
  ordered := cut.ordered
  blank := by
    intro position d above below read outside
    -- The new first position is the blank itself.
    rcases Nat.eq_or_lt_of_le above with rfl | later
    · rw [present] at read
      cases read
      exact blank
    · exact cut.blank position d later below read outside
  bounded := cut.bounded

private theorem cons_token (place : token.column = first + 1)
    (longest : IsLongest token.kind token.text.toList (source.drop first))
    (bounded : token.kind = .integer → digitsValue token.text.toList ≤ largestMagnitude)
    (cut : Cuts source (first + token.text.length) last tokens) :
    Cuts source first last (token :: tokens) := by
  have begins : token.start = first := by
    simp [start, place]
  have ends : token.stop = first + token.text.length := by
    rw [stop, begins]
  have forward := cut.forward
  constructor
  case forward => omega
  case column =>
    intro other member
    rcases List.mem_cons.mp member with rfl | member
    · rw [place, begins]
    · exact cut.column other member
  case within =>
    intro other member
    rcases List.mem_cons.mp member with rfl | member
    · omega
    · have := cut.within other member
      omega
  case spelled =>
    intro other member
    rcases List.mem_cons.mp member with rfl | member
    · rw [begins, ← String.length_toList]
      exact (List.prefix_iff_eq_take.mp longest.front).symm
    · exact cut.spelled other member
  case longest =>
    intro other member
    rcases List.mem_cons.mp member with rfl | member
    · rw [begins]
      exact longest
    · exact cut.longest other member
  case ordered =>
    refine List.Pairwise.cons ?_ cut.ordered
    intro later member
    rw [ends]
    exact (cut.within later member).1
  case blank =>
    intro position c above below read outside
    -- What lies outside the first token lies behind it.
    have beyond := outside token List.mem_cons_self
    refine cut.blank position c (by omega) below read ?_
    intro later member
    exact outside later (List.mem_cons_of_mem token member)
  case bounded =>
    intro other member
    rcases List.mem_cons.mp member with rfl | member
    · exact bounded
    · exact cut.bounded other member

private theorem start_lt_stop (cut : Cuts source first last tokens) (member : token ∈ tokens) :
    token.start < token.stop := by
  have nonempty := (cut.longest token member).matching.ne_nil
  have length := List.length_pos_iff.mpr nonempty
  rw [String.length_toList] at length
  simp only [stop]
  omega

/-- The character at which a token begins is not blank. -/
private theorem visible_of_start {c : Char} (cut : Cuts source first last tokens)
    (member : token ∈ tokens) (read : source[token.start]? = some c) :
    Text.isBlank c = false := by
  have longest := cut.longest token member
  have matching := longest.matching
  obtain ⟨rest, split⟩ := longest.front
  obtain ⟨d, tail, text, _⟩ := matching.exists_first
  rw [text] at matching split
  have head : (source.drop token.start).head? = some d := by
    rw [← split]
    rfl
  rw [List.head?_drop, read] at head
  cases head
  exact isBlank_eq_false_of_matches matching

private theorem eq_nil (cut : Cuts source first first tokens) : tokens = [] := by
  apply List.eq_nil_iff_forall_not_mem.mpr
  intro token member
  have within := cut.within token member
  have nonempty := cut.start_lt_stop member
  omega

private theorem skip_blank {c : Char} (cut : Cuts source first last tokens) (below : first < last)
    (present : source[first]? = some c) (blank : Text.isBlank c = true) :
    Cuts source (first + 1) last tokens where
  forward := below
  column := cut.column
  within := by
    intro token member
    obtain ⟨above, within⟩ := cut.within token member
    refine ⟨?_, within⟩
    -- No token begins at a blank.
    rcases Nat.eq_or_lt_of_le above with rfl | later
    · have visible := cut.visible_of_start member present
      rw [blank] at visible
      cases visible
    · exact later
  spelled := cut.spelled
  longest := cut.longest
  ordered := cut.ordered
  blank := fun position d above => cut.blank position d (Nat.le_of_succ_le above)
  bounded := cut.bounded

/-- A cut that begins at a visible character begins with a token there. -/
private theorem exists_token {c : Char} (cut : Cuts source first last tokens) (below : first < last)
    (present : source[first]? = some c) (visible : Text.isBlank c = false) :
    ∃ token rest, tokens = token :: rest ∧ token.start = first := by
  by_contra none
  -- Every token begins behind the position, because the first of them does.
  have later : ∀ token ∈ tokens, first < token.start := by
    cases tokens with
    | nil => exact fun _ absent => absurd absent List.not_mem_nil
    | cons token rest =>
      have above := (cut.within token List.mem_cons_self).1
      have differs : token.start ≠ first := fun equal => none ⟨token, rest, rfl, equal⟩
      intro other member
      rcases List.mem_cons.mp member with rfl | member
      · omega
      · have ordered := List.rel_of_pairwise_cons cut.ordered member
        have nonempty := cut.start_lt_stop List.mem_cons_self
        omega
  have blank := cut.blank first c (Nat.le_refl first) below present fun token member => by
    have := later token member
    omega
  rw [visible] at blank
  cases blank

theorem tail {token : Token} (cut : Cuts source first last (token :: tokens))
    (begins : token.start = first) : Cuts source (first + token.text.length) last tokens := by
  have ends : token.stop = first + token.text.length := by
    rw [stop, begins]
  have ordered : ∀ later ∈ tokens, token.stop ≤ later.start := fun later member =>
    List.rel_of_pairwise_cons cut.ordered member
  constructor
  case forward =>
    rw [← ends]
    exact (cut.within token List.mem_cons_self).2
  case within =>
    intro later member
    rw [← ends]
    exact ⟨ordered later member, (cut.within later (List.mem_cons_of_mem token member)).2⟩
  case blank =>
    intro position c above below read outside
    refine cut.blank position c (by omega) below read ?_
    intro other member
    rcases List.mem_cons.mp member with rfl | member
    · omega
    · exact outside other member
  case column => exact fun later member => cut.column later (List.mem_cons_of_mem token member)
  case spelled => exact fun later member => cut.spelled later (List.mem_cons_of_mem token member)
  case longest => exact fun later member => cut.longest later (List.mem_cons_of_mem token member)
  case ordered => exact List.Pairwise.of_cons cut.ordered
  case bounded => exact fun later member => cut.bounded later (List.mem_cons_of_mem token member)

end Cuts

/-! ### A whole run -/

/-- The scanner goes through a cut and on from its end. -/
theorem scanFrom_of_cuts (cut : Cuts source first last tokens) (inside : last ≤ source.length) :
    scanFrom (first + 1) (source.drop first) =
      (scanFrom (last + 1) (source.drop last)).map (tokens ++ ·) := by
  -- By the number of characters left to the end of the cut.
  induction left : last - first using Nat.strong_induction_on generalizing first tokens with
  | _ left ih =>
    rcases Nat.eq_or_lt_of_le cut.forward with rfl | below
    · rw [cut.eq_nil]
      cases scanFrom (first + 1) (source.drop first) <;> rfl
    · have bound : first < source.length := Nat.lt_of_lt_of_le below inside
      have present : source[first]? = some source[first] := List.getElem?_eq_getElem bound
      cases blank : Text.isBlank source[first] with
      | true =>
        rw [List.drop_eq_getElem_cons bound, scanFrom_blank blank]
        exact ih _ (by omega) (cut.skip_blank below present blank) rfl
      | false =>
        -- The scanner takes the first token, because it is the longest match there.
        obtain ⟨token, rest, rfl, begins⟩ := cut.exists_token below present blank
        have longest := cut.longest token List.mem_cons_self
        have place := cut.column token List.mem_cons_self
        have nonempty := cut.start_lt_stop List.mem_cons_self
        rw [begins] at longest place
        obtain ⟨behind, split⟩ := longest.front
        have dropped : source.drop (first + token.text.length) = behind := by
          rw [← List.drop_drop, ← split, ← String.length_toList, List.drop_left]
        rw [← split] at longest ⊢
        rw [scanFrom_token longest (cut.bounded token List.mem_cons_self), String.length_toList,
          Nat.add_right_comm, ← dropped,
          ih _ (by simp only [stop] at nonempty; omega) (cut.tail begins) rfl]
        have same : (⟨token.kind, String.ofList token.text.toList, (first + 1 : Nat)⟩ : Token)
            = token := by
          rw [String.ofList_toList, Int.natCast_add, Int.natCast_one, ← place]
        rw [same]
        cases scanFrom (last + 1) (source.drop last) <;> rfl

private theorem rest_of_lexeme? {lexeme : Lexeme} (inside : first ≤ source.length)
    (found : lexeme? (source.drop first) = some lexeme) :
    lexeme.rest = source.drop (first + lexeme.text.length) ∧
      first + lexeme.text.length ≤ source.length := by
  obtain ⟨_, split⟩ := matches_of_lexeme? found
  constructor
  · rw [← List.drop_drop, split, List.drop_left]
  · have length := congrArg List.length split
    rw [List.length_drop, List.length_append] at length
    omega

private theorem Cuts.cons_lexeme {lexeme : Lexeme}
    (found : lexeme? (source.drop first) = some lexeme)
    (small : ¬(lexeme.kind = .integer ∧ fitsMagnitude lexeme.text = false))
    (cut : Cuts source (first + lexeme.text.length) last tokens) :
    Cuts source first last
      (⟨lexeme.kind, String.ofList lexeme.text, (first + 1 : Nat)⟩ :: tokens) := by
  have longest := isLongest_of_lexeme? found
  apply cons_token
  case place => simp
  case longest =>
    rw [String.toList_ofList]
    exact longest
  case bounded =>
    rw [String.toList_ofList]
    intro integer
    have run := longest.matching
    rw [show lexeme.kind = .integer from integer] at run
    apply (fitsMagnitude_iff run.2).mp
    by_contra exceeds
    exact small ⟨integer, Bool.eq_false_iff.mpr exceeds⟩
  case cut =>
    rw [← String.length_toList, String.toList_ofList]
    exact cut

/-- What the scanner answers describes the text from where it began: its tokens cut it to its end,
or other tokens cut it up to a fault. -/
theorem cuts_of_scanFrom (source : List Char) {first column : Nat} {s : List Char}
    (place : column = first + 1) (rest : s = source.drop first) (inside : first ≤ source.length) :
    match scanFrom column s with
    | .ok tokens => Cuts source first source.length tokens
    | .error error => ∃ position tokens,
        Cuts source first position tokens ∧ FaultAt source position error := by
  fun_induction scanFrom column s generalizing first with
  | case1 column =>
    have whole : first = source.length := by
      have le := List.drop_eq_nil_iff.mp rest.symm
      omega
    rw [whole]
    exact Cuts.nil source source.length
  | case2 column c tail blank ih =>
    have present : source[first]? = some c := by
      rw [← List.head?_drop, ← rest]
      rfl
    have bound := (List.getElem?_eq_some_iff.mp present).1
    have behind : tail = source.drop (first + 1) := by
      rw [← List.tail_drop, ← rest]
      rfl
    have further := ih (by rw [place]) behind bound
    split at further
    · exact further.cons_blank present blank
    · obtain ⟨position, tokens, cut, fault⟩ := further
      exact ⟨position, tokens, cut.cons_blank present blank, fault⟩
  | case3 column c tail visible none =>
    have present : source[first]? = some c := by
      rw [← List.head?_drop, ← rest]
      rfl
    rw [rest] at none
    rw [place]
    exact ⟨first, [], Cuts.nil source first,
      .unexpectedCharacter present (Bool.eq_false_iff.mpr visible) (lexeme?_eq_none_iff.mp none)⟩
  | case4 column c tail visible lexeme found large =>
    have longest := isLongest_of_lexeme? found
    obtain ⟨matching, split⟩ := matches_of_lexeme? found
    rw [large.1] at matching longest
    rw [split] at longest
    refine ⟨first, [], Cuts.nil source first, ?_⟩
    rw [place]
    -- The run of digits is maximal, because it is the longest match.
    refine .integerTooLarge (rest.symm.trans split) matching ?_ ?_
    · intro d head
      have stops := longest.stops head
      simpa [TokenKind.continues] using stops
    · have exceeds := mt (fitsMagnitude_iff matching.2).mpr (Bool.eq_false_iff.mp large.2)
      omega
  | case5 column c tail visible lexeme found small shorter error later ih =>
    rw [rest] at found
    obtain ⟨behind, bound⟩ := rest_of_lexeme? inside found
    have further := ih (by omega) behind bound
    rw [later] at further
    obtain ⟨position, tokens, cut, fault⟩ := further
    exact ⟨position, _, cut.cons_lexeme found small, fault⟩
  | case6 column c tail visible lexeme found small shorter tokens later ih =>
    rw [rest] at found
    obtain ⟨behind, bound⟩ := rest_of_lexeme? inside found
    have further := ih (by omega) behind bound
    rw [later] at further
    have cut := further.cons_lexeme found small
    rw [place]
    exact cut

theorem cuts_of_scan {source : String} (scanned : scan source = .ok tokens) :
    Cuts source.toList 0 source.toList.length tokens := by
  have described := cuts_of_scanFrom source.toList (Nat.zero_add 1).symm rfl
    (Nat.zero_le _)
  rw [show scanFrom 1 (source.toList.drop 0) = .ok tokens from scanned] at described
  exact described

theorem isLexical_of_scan {source : String} (scanned : scan source = .ok tokens) :
    ∀ token ∈ tokens, token.IsLexical :=
  fun token member => ((cuts_of_scan scanned).longest token member).matching.isLexical

private theorem exists_fault_of_scan {source : String} {error : ScanError}
    (scanned : scan source = .error error) :
    ∃ position tokens, Cuts source.toList 0 position tokens ∧
      FaultAt source.toList position error := by
  have described := cuts_of_scanFrom source.toList (Nat.zero_add 1).symm rfl
    (Nat.zero_le _)
  rw [show scanFrom 1 (source.toList.drop 0) = .error error from scanned] at described
  exact described

private theorem scan_of_cuts {source : String}
    (cut : Cuts source.toList 0 source.toList.length tokens) : scan source = .ok tokens := by
  have run := scanFrom_of_cuts cut (Nat.le_refl _)
  rw [List.drop_length, scanFrom_nil] at run
  calc scan source = .ok (tokens ++ []) := run
    _ = .ok tokens := by rw [List.append_nil]

private theorem scan_of_fault {source : String} {error : ScanError}
    (cut : Cuts source.toList 0 position tokens) (fault : FaultAt source.toList position error) :
    scan source = .error error := by
  have run := scanFrom_of_cuts cut (Nat.le_of_lt fault.position_lt)
  rw [scanFrom_of_faultAt fault] at run
  exact run

/-- The scanner answers with the tokens that cut the text to its end, or with the first fault. -/
theorem scan_cuts_into_longest_tokens (source : String) :
    (∀ tokens, scan source = .ok tokens ↔ Cuts source.toList 0 source.toList.length tokens) ∧
    (∀ error, scan source = .error error ↔
      ∃ position tokens, error.column = position + 1 ∧ Cuts source.toList 0 position tokens ∧
        FaultAt source.toList position error) ∧
    (∀ tokens, scan source = .ok tokens →
      ∀ token ∈ tokens, token.kind = .letWord ↔ token.text = "let") := by
  refine ⟨fun tokens => ⟨cuts_of_scan, scan_of_cuts⟩, fun error => ⟨?_, ?_⟩, ?_⟩
  · intro scanned
    obtain ⟨position, tokens, cut, fault⟩ := exists_fault_of_scan scanned
    exact ⟨position, tokens, fault.column_eq, cut, fault⟩
  · rintro ⟨position, tokens, _, cut, fault⟩
    exact scan_of_fault cut fault
  · intro tokens scanned token member
    exact letWord_iff ((cuts_of_scan scanned).longest token member).matching

/-- The tokens of a keyword and a longer name, a point that belongs to the numeral before it, and
the largest magnitude behind zeros. -/
def neighbours : List Token :=
  [⟨.letWord, "let", 1⟩, ⟨.identifier, "lets", 5⟩, ⟨.equals, "=", 9⟩, ⟨.real, "1.", 11⟩,
   ⟨.integer, "002147483648", 14⟩]

theorem neighbours_cut_their_text :
    scan "let lets= 1. 002147483648" = .ok neighbours ∧
    Cuts "let lets= 1. 002147483648".toList 0 25 neighbours ∧
    ∀ token ∈ neighbours, token.kind = .letWord ↔ token.text = "let" := by
  have scanned : scan "let lets= 1. 002147483648" = .ok neighbours := by decide +kernel
  obtain ⟨cuts, _, keyword⟩ := scan_cuts_into_longest_tokens "let lets= 1. 002147483648"
  exact ⟨scanned, (cuts neighbours).mp scanned, keyword neighbours scanned⟩

end Calculator.Token
