import Calculator.Text.Blank
import Calculator.Text.Lines
import Mathlib.Data.List.DropRight

/-!
# What lines say

Cut at its line ends, and without the blanks around them, a text falls into pieces. Everything
about pieces follows from one equation: the pieces of two texts with a line end between them are
those of the one and then those of the other. Line ends among the blanks around a piece make
further lines, but those say nothing; only inside a piece a line end makes two pieces of it.

## Main result

`pieces_lineEnds_eq_iff`: the lines of a file and the lines of a stream say the same exactly when
no line of the stream has a line end inside what it says.
-/

namespace Calculator.Text

/-! ### Blanks at the ends -/

/-- A function that ignores a blank at either end of a text ignores stripping. -/
theorem apply_strip {β : Type} {f : List Char → β}
    (front : ∀ {c} s, isBlank c = true → f (c :: s) = f s)
    (rear : ∀ {c} s, isBlank c = true → f (s ++ [c]) = f s) (s : List Char) :
    f (strip s) = f s := by
  have left : f (s.dropWhile isBlank) = f s := by
    induction s with
    | nil => rfl
    | cons c rest ih =>
      rw [List.dropWhile_cons]
      split
      · next blank => rw [ih, front rest blank]
      · rfl
  have right (t : List Char) : f (t.rdropWhile isBlank) = f t := by
    induction t using List.reverseRecOn with
    | nil => rfl
    | append_singleton t c ih =>
      rw [List.rdropWhile_concat]
      split
      · next blank => rw [ih, rear t blank]
      · rfl
  exact (right _).trans left

theorem strip_cons {c : Char} (s : List Char) (blank : isBlank c = true) :
    strip (c :: s) = strip s := by
  rw [strip, List.dropWhile_cons_of_pos blank, strip]

theorem strip_concat {c : Char} (s : List Char) (blank : isBlank c = true) :
    strip (s ++ [c]) = strip s := by
  change (List.dropWhile isBlank (s ++ [c])).rdropWhile isBlank
    = (List.dropWhile isBlank s).rdropWhile isBlank
  rw [List.dropWhile_append]
  split
  · next none => simp [List.isEmpty_iff.mp none, blank, List.rdropWhile]
  · rw [List.rdropWhile_concat_pos _ _ _ blank]

theorem strip_strip (s : List Char) : strip (strip s) = strip s :=
  apply_strip strip_cons strip_concat s

private theorem mem_of_mem_strip {s : List Char} {c : Char} (member : c ∈ strip s) : c ∈ s :=
  (List.dropWhile_suffix isBlank).subset
    ((List.rdropWhile_prefix isBlank (s.dropWhile isBlank)).subset member)

/-! ### Pieces -/

variable {endsLine : Char → Bool} {s : List Char}

/-- What stands between line ends, without the blanks around it; what is blank is left out. -/
def pieces (endsLine : Char → Bool) (s : List Char) : List (List Char) :=
  ((s.splitOnP endsLine).map strip).filter (· ≠ [])

/-- To prove something of every text, prove it of a line and of a line in front of a text. -/
theorem line_induction (endsLine : Char → Bool) {motive : List Char → Prop}
    (line : ∀ s, (∀ c ∈ s, endsLine c = false) → motive s)
    (cut : ∀ s c rest, (∀ c ∈ s, endsLine c = false) → endsLine c = true → motive rest →
      motive (s ++ c :: rest)) (s : List Char) : motive s := by
  -- The line in front is what stands before the first line end.
  have free : ∀ c ∈ s.takeWhile (!endsLine ·), endsLine c = false := by
    intro c member
    simpa using List.mem_takeWhile_imp member
  have whole := s.takeWhile_append_dropWhile (p := (!endsLine ·))
  match split : s.dropWhile (!endsLine ·) with
  | [] =>
    rw [split, List.append_nil] at whole
    exact line s (whole ▸ free)
  | c :: rest =>
    have ends : endsLine c = true := by
      have first := List.head_dropWhile_not (p := (!endsLine ·)) (l := s) (by simp [split])
      simpa [split] using first
    rw [split] at whole
    have shorter : rest.length < s.length := by
      rw [← whole]
      simp
      omega
    rw [← whole]
    exact cut _ c rest free ends (line_induction endsLine line cut rest)
termination_by s.length

private theorem pieces_append_end {c : Char} (ends : endsLine c = true) (a b : List Char) :
    pieces endsLine (a ++ c :: b) = pieces endsLine a ++ pieces endsLine b := by
  rw [pieces, List.splitOnP_append_cons a b ends, List.map_append, List.filter_append, pieces,
    pieces]

private theorem pieces_line (free : ∀ c ∈ s, endsLine c = false) :
    pieces endsLine s = [strip s].filter (· ≠ []) := by
  rw [pieces, List.splitOnP_eq_singleton free, List.map_singleton]

theorem pieces_nil : pieces endsLine [] = [] := rfl

private theorem pieces_cons {c : Char} (s : List Char) (blank : isBlank c = true) :
    pieces endsLine (c :: s) = pieces endsLine s := by
  cases ends : endsLine c with
  | true => exact pieces_append_end ends [] s
  | false =>
    obtain ⟨head, tail, split⟩ :=
      List.exists_cons_of_ne_nil (List.splitOnP_ne_nil endsLine s)
    rw [pieces, List.splitOnP_cons_eq_if_modifyHead, if_neg (by simp [ends]), split,
      List.modifyHead_cons, List.map_cons, strip_cons head blank, ← List.map_cons, ← split, pieces]

private theorem pieces_concat {c : Char} (s : List Char) (blank : isBlank c = true) :
    pieces endsLine (s ++ [c]) = pieces endsLine s := by
  cases ends : endsLine c with
  | true => rw [pieces_append_end ends s [], pieces_nil, List.append_nil]
  | false =>
    induction s using line_induction endsLine with
    | line s free =>
      have longer : ∀ d ∈ s ++ [c], endsLine d = false :=
        List.forall_mem_append.mpr ⟨free, List.forall_mem_singleton.mpr ends⟩
      rw [pieces_line longer, pieces_line free, strip_concat s blank]
    | cut s d rest free stops ih =>
      rw [List.append_assoc, List.cons_append, pieces_append_end stops, pieces_append_end stops,
        ih]

private theorem pieces_strip (s : List Char) : pieces endsLine (strip s) = pieces endsLine s :=
  apply_strip pieces_cons pieces_concat s

/-- The lines of a text say its pieces: only a line that says nothing may be missing. -/
theorem pieces_eq_splitLines (s : List Char) :
    pieces endsLine s = ((splitLines endsLine s).map strip).filter (· ≠ []) := by
  -- The library also counts the empty line behind a last line end.
  have last : s.splitOnP endsLine = splitLines endsLine s ∨
      s.splitOnP endsLine = splitLines endsLine s ++ [[]] := by
    induction s with
    | nil => exact .inr rfl
    | cons c rest ih =>
      rw [List.splitOnP_cons_eq_if_modifyHead, splitLines]
      split
      · rcases ih with same | more
        · exact .inl (by rw [same])
        · exact .inr (by rw [more, List.cons_append])
      · split
        · next none =>
          rcases ih with same | more
          · exact absurd (same.trans none) (List.splitOnP_ne_nil _ _)
          · exact .inl (by rw [more, none]; rfl)
        · next line lines some =>
          rcases ih with same | more
          · exact .inl (by rw [same, some, List.modifyHead_cons])
          · exact .inr (by rw [more, some, List.cons_append, List.modifyHead_cons]; rfl)
  rcases last with same | more
  · rw [pieces, same]
  · rw [pieces, more, List.map_append, List.filter_append]
    simp [strip_nil]

/-- A piece of the lines of a text holds no line end. -/
private theorem endsLine_eq_false_of_mem_pieces {piece : List Char} {c : Char}
    (member : piece ∈ pieces endsLine s) (inside : c ∈ piece) : endsLine c = false := by
  rw [pieces_eq_splitLines] at member
  obtain ⟨line, present, rfl⟩ := List.mem_map.mp (List.mem_filter.mp member).1
  exact endsLine_eq_false_of_mem present (mem_of_mem_strip inside)

/-! ### Files and streams -/

private theorem unifyLineFeeds_append {s : List Char} (free : '\r' ∉ s) (rest : List Char) :
    unifyLineFeeds (s ++ rest) = s ++ unifyLineFeeds rest := by
  induction s with
  | nil => rfl
  | cons c s ih =>
    rw [List.mem_cons, not_or] at free
    have plain : c ≠ '\r' := Ne.symm free.1
    rw [List.cons_append, unifyLineFeeds, if_neg plain, ih free.2, List.cons_append]
    exact fun _ carriage => absurd carriage plain

/-- A carriage return and the line feed behind it end an empty line more than the line feed that is
written for both. -/
private theorem pieces_unifyLineFeeds_end {c : Char} (ends : lineEnds.contains c = true)
    (s rest : List Char) :
    pieces (lineEnds.contains ·) (s ++ unifyLineFeeds (c :: rest))
      = pieces (lineEnds.contains ·) s ++ pieces (lineEnds.contains ·) (unifyLineFeeds rest) := by
  rw [unifyLineFeeds.eq_def]
  split
  · next none => cases none
  · next rest' both =>
    cases both
    -- The line feed of the pair, unified by itself, would end one more line without a piece.
    have feed : unifyLineFeeds ('\n' :: rest') = '\n' :: unifyLineFeeds rest' :=
      unifyLineFeeds_append (s := ['\n']) (by decide) rest'
    rw [feed, pieces_append_end rfl, pieces_cons _ (by decide)]
  · next c' rest' _ same =>
    cases same
    apply pieces_append_end
    split
    · rfl
    · exact ends

/-- Line feeds written for other line ends leave the pieces of a text alone. -/
theorem pieces_unifyLineFeeds (s : List Char) :
    pieces (lineEnds.contains ·) (unifyLineFeeds s) = pieces (lineEnds.contains ·) s := by
  have noCarriage {s : List Char} (free : ∀ c ∈ s, lineEnds.contains c = false) : '\r' ∉ s :=
    fun member => absurd (free _ member) (by decide)
  induction s using line_induction (lineEnds.contains ·) with
  | line s free =>
    have same := unifyLineFeeds_append (noCarriage free) []
    rw [unifyLineFeeds, List.append_nil] at same
    rw [same]
  | cut s c rest free ends ih =>
    rw [unifyLineFeeds_append (noCarriage free), pieces_unifyLineFeeds_end ends, ih,
      pieces_append_end ends]

/-- A line that holds line ends among its outer blanks only is one piece of a file. -/
private theorem pieces_lineEnds_line {s : List Char} (free : ∀ c ∈ s, (c == '\n') = false)
    (whole : ∀ piece ∈ pieces (· == '\n') s, ∀ c ∈ piece, c ∉ lineEnds) :
    pieces (lineEnds.contains ·) s = pieces (· == '\n') s := by
  -- Without its outer blanks the line is free of all line ends.
  have alone : pieces (lineEnds.contains ·) (strip s) = [strip (strip s)].filter (· ≠ []) := by
    apply pieces_line
    intro c member
    have present : strip s ∈ pieces (· == '\n') s := by
      rw [pieces_line free]
      simpa using List.ne_nil_of_mem member
    simpa using whole (strip s) present c member
  rw [← pieces_strip, alone, strip_strip, pieces_line free]

/-- The lines of a file and the lines of a stream say the same exactly when no line of the stream
has a line end inside what it says. -/
theorem pieces_lineEnds_eq_iff (s : List Char) :
    pieces (lineEnds.contains ·) (unifyLineFeeds s) = pieces (· == '\n') s ↔
      ∀ piece ∈ pieces (· == '\n') s, ∀ c ∈ piece, c ∉ lineEnds := by
  rw [pieces_unifyLineFeeds]
  constructor
  · intro same piece member c inside
    rw [← same] at member
    simpa using endsLine_eq_false_of_mem_pieces member inside
  · intro whole
    -- A line feed ends a line of both, so that the text is compared line by line.
    induction s using line_induction (· == '\n') with
    | line s free => exact pieces_lineEnds_line free whole
    | cut s c rest free feed ih =>
      obtain rfl : c = '\n' := eq_of_beq feed
      have lines : pieces (· == '\n') (s ++ '\n' :: rest)
          = pieces (· == '\n') s ++ pieces (· == '\n') rest := pieces_append_end (by rfl) s rest
      rw [lines, List.forall_mem_append] at whole
      rw [lines, pieces_append_end (by rfl), pieces_lineEnds_line free whole.1, ih whole.2]

end Calculator.Text
