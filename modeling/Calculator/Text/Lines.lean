/-!
# Lines

A text is cut into lines after each line end. What follows the last line end is a line
of its own unless it is empty. A terminal ends a line with a line feed only; a file may
end it in any of the ways that Unicode knows.
-/

namespace Calculator.Text

/-- Cuts a text after each character that ends a line; the ends are dropped. -/
def splitLines (endsLine : Char → Bool) : List Char → List (List Char)
  | [] => []
  | c :: rest =>
    if endsLine c then [] :: splitLines endsLine rest
    else
      match splitLines endsLine rest with
      | [] => [[c]]
      | line :: lines => (c :: line) :: lines

/-- Writes each carriage return, with the line feed that may follow it, as a line feed. -/
def unifyLineFeeds : List Char → List Char
  | [] => []
  | '\r' :: '\n' :: rest => '\n' :: unifyLineFeeds rest
  | c :: rest => (if c = '\r' then '\n' else c) :: unifyLineFeeds rest

/-- The characters that end a line of a file. -/
def lineEnds : List Char :=
  ['\n', '\r', '\x0b', '\x0c', '\x1c', '\x1d', '\x1e', '\u0085', '\u2028', '\u2029']

def fileLines (text : String) : List String :=
  (splitLines (lineEnds.contains ·) (unifyLineFeeds text.toList)).map String.ofList

def streamLines (text : String) : List String :=
  (splitLines (· == '\n') text.toList).map String.ofList

/-- No line holds a line end. -/
theorem endsLine_eq_false_of_mem {endsLine : Char → Bool} {s line : List Char} {c : Char}
    (member : line ∈ splitLines endsLine s) (inside : c ∈ line) : endsLine c = false := by
  induction s generalizing line with
  | nil => simp [splitLines] at member
  | cons first rest ih =>
    unfold splitLines at member
    split at member
    · rcases List.mem_cons.mp member with rfl | later
      · simp at inside
      · exact ih later inside
    · next continues =>
      split at member
      · next empty =>
        obtain rfl : line = [first] := by simpa using member
        obtain rfl : c = first := by simpa using inside
        simpa using continues
      · next line₀ lines found =>
        rcases List.mem_cons.mp member with rfl | later
        · rcases List.mem_cons.mp inside with rfl | tail
          · simpa using continues
          · exact ih (found ▸ List.mem_cons_self) tail
        · exact ih (found ▸ List.mem_cons_of_mem _ later) inside

end Calculator.Text
