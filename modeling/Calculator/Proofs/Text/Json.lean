import Calculator.Text.Json
import Mathlib.Algebra.Group.Nat.Defs
import Mathlib.Data.List.Basic

/-!
# Reading JSON strings back

What is written for a character tells the character and where its text ends, whatever follows:
a backslash opens a form of its own, four hexadecimal digits are worth one unit, and the first
half of a pair is no character alone. A string is therefore read up to its closing quote, and
never beyond it.

## Main results

- `selfDelimiting_jsonString`: the front of a text tells the string that stands there.
- `toList_jsonObject`: an object is a list of lines between two braces.
-/

namespace Calculator.Text

/-! ### Codes that tell where they end -/

/-- The front of a text tells which item is written there and where its text ends. -/
def SelfDelimiting {α : Type} (code : α → List Char) : Prop :=
  ∀ ⦃a b : α⦄ ⦃r s : List Char⦄, code a ++ r = code b ++ s → a = b ∧ r = s

namespace SelfDelimiting

variable {α : Type} {code : α → List Char}

private theorem of_read {read : List Char → Option (α × List Char)}
    (reads : ∀ a rest, read (code a ++ rest) = some (a, rest)) : SelfDelimiting code := by
  intro a b r s same
  have first := reads a r
  rw [same, reads b s] at first
  cases first
  exact ⟨rfl, rfl⟩

/-- A mark that begins no item ends a sequence of items. -/
theorem closed {mark : Char} (item : SelfDelimiting code)
    (opens : ∀ a, ∃ first others, code a = first :: others ∧ first ≠ mark) :
    SelfDelimiting fun items : List α => items.flatMap code ++ [mark] := by
  intro items
  induction items with
  | nil =>
    intro others r s same
    cases others with
    | nil => exact ⟨rfl, by simpa using same⟩
    | cons b others =>
      -- One text begins with the mark and the other one with an item.
      obtain ⟨first, rest, text, other⟩ := opens b
      simp only [List.flatMap_nil, List.flatMap_cons, text] at same
      exact absurd (List.head_eq_of_cons_eq same).symm other
  | cons a items ih =>
    intro others r s same
    cases others with
    | nil =>
      obtain ⟨first, rest, text, other⟩ := opens a
      simp only [List.flatMap_nil, List.flatMap_cons, text] at same
      exact absurd (List.head_eq_of_cons_eq same) other
    | cons b others =>
      simp only [List.flatMap_cons, List.append_assoc] at same
      obtain ⟨rfl, rest⟩ := item same
      simp only [← List.append_assoc] at rest
      obtain ⟨rfl, rfl⟩ := ih rest
      exact ⟨rfl, rfl⟩

end SelfDelimiting

/-! ### Hexadecimal digits -/

def hexValue (c : Char) : Nat :=
  if c.isDigit then c.toNat - '0'.toNat else c.toNat - 'a'.toNat + 10

private theorem hexValue_digitChar {n : Nat} (small : n < 16) : hexValue n.digitChar = n := by
  revert n
  decide

def readHex (digits : List Char) : Nat :=
  digits.foldl (fun value c => 16 * value + hexValue c) 0

private theorem readHex_concat (digits : List Char) (c : Char) :
    readHex (digits ++ [c]) = 16 * readHex digits + hexValue c := by
  simp [readHex]

private theorem hexDigits_one {n : Nat} (small : n < 16) : hexDigits 1 n = [n.digitChar] := by
  rw [hexDigits, Nat.toDigits_of_lt_base small]
  rfl

/-- The last digit stands behind the digits of the quotient. -/
private theorem hexDigits_succ {width : Nat} (n : Nat) (nonempty : 0 < width) :
    hexDigits (width + 1) n = hexDigits width (n / 16) ++ [(n % 16).digitChar] := by
  simp only [hexDigits, List.leftpad]
  rcases Nat.lt_or_ge n 16 with small | large
  · -- A single digit is padded with zeros, and so is the zero that is its quotient.
    obtain ⟨k, rfl⟩ : ∃ k, width = k + 1 := ⟨width - 1, by omega⟩
    rw [Nat.toDigits_of_lt_base small, Nat.div_eq_of_lt small, Nat.mod_eq_of_lt small,
      Nat.toDigits_zero]
    simp [List.replicate_succ']
  · rw [Nat.toDigits_of_base_le (by decide) large]
    simp

theorem length_hexDigits {width n : Nat} (nonempty : 0 < width) (fits : n < 16 ^ width) :
    (hexDigits width n).length = width := by
  have short := (Nat.length_toDigits_le_iff (by decide : 1 < 16) nonempty).mpr fits
  simpa [hexDigits, List.leftpad] using Nat.sub_add_cancel short

theorem readHex_hexDigits {width n : Nat} (nonempty : 0 < width) (fits : n < 16 ^ width) :
    readHex (hexDigits width n) = n := by
  induction width generalizing n with
  | zero => exact absurd nonempty (Nat.lt_irrefl 0)
  | succ width ih =>
    rcases Nat.eq_zero_or_pos width with rfl | positive
    · rw [hexDigits_one fits]
      simpa [readHex] using hexValue_digitChar fits
    · have quotient : n / 16 < 16 ^ width := by
        rw [Nat.div_lt_iff_lt_mul (by decide)]
        exact fits
      rw [hexDigits_succ n positive, readHex_concat, ih positive quotient,
        hexValue_digitChar (Nat.mod_lt n (by decide))]
      omega

/-! ### Characters -/

/-- The character behind a backslash, for the short forms. -/
def shortForm : Char → Char
  | 'n' => '\n'
  | 'r' => '\r'
  | 't' => '\t'
  | 'b' => '\x08'
  | 'f' => '\x0c'
  | c => c

def readJsonChar : List Char → Option (Char × List Char)
  | '\\' :: 'u' :: rest =>
    let unit := readHex (rest.take 4)
    if 0xd800 ≤ unit ∧ unit < 0xdc00 then
      let low := readHex ((rest.drop 6).take 4)
      some (Char.ofNat (0x10000 + (unit - 0xd800) * 0x400 + (low - 0xdc00)), rest.drop 10)
    else some (Char.ofNat unit, rest.drop 4)
  | '\\' :: c :: rest => some (shortForm c, rest)
  | c :: rest => some (c, rest)
  | [] => none

private theorem readHex_unit {n : Nat} (fits : n < 0x10000) (rest : List Char) :
    readHex ((hexDigits 4 n ++ rest).take 4) = n ∧ (hexDigits 4 n ++ rest).drop 4 = rest := by
  have fits : n < 16 ^ 4 := fits
  have length : (hexDigits 4 n).length = 4 := length_hexDigits (by decide) fits
  rw [List.take_left' length, List.drop_left' length]
  exact ⟨readHex_hexDigits (by decide) fits, rfl⟩

/-- A unit that is no first half of a pair is the character itself. -/
private theorem readJsonChar_unit {c : Char} (short : c.toNat < 0x10000) (rest : List Char) :
    readJsonChar (jsonUnit c.toNat ++ rest) = some (c, rest) := by
  obtain ⟨value, behind⟩ := readHex_unit short rest
  have range : c.toNat < 0xd800 ∨ 0xdfff < c.toNat ∧ c.toNat < 0x110000 := c.valid
  have whole : ¬(0xd800 ≤ c.toNat ∧ c.toNat < 0xdc00) := by omega
  simp only [jsonUnit, List.cons_append, readJsonChar, value, behind, if_neg whole,
    Char.ofNat_toNat]

/-- Two halves are read as the character that they add up to. -/
private theorem readJsonChar_pair {c : Char} {high low : Nat}
    (first : 0xd800 ≤ high ∧ high < 0xdc00) (second : low < 0x10000)
    (sum : 0x10000 + (high - 0xd800) * 0x400 + (low - 0xdc00) = c.toNat) (rest : List Char) :
    readJsonChar (jsonUnit high ++ jsonUnit low ++ rest) = some (c, rest) := by
  simp only [jsonUnit, List.cons_append, List.append_assoc]
  have small : high < 0x10000 := by omega
  obtain ⟨value, behind⟩ := readHex_unit small ('\\' :: 'u' :: (hexDigits 4 low ++ rest))
  obtain ⟨lowValue, lowBehind⟩ := readHex_unit second rest
  -- The digits of the second half stand behind those of the first and the two characters before.
  have six (s : List Char) : s.drop 6 = (s.drop 4).drop 2 := by rw [List.drop_drop]
  have ten (s : List Char) : s.drop 10 = ((s.drop 4).drop 2).drop 4 := by
    rw [List.drop_drop, List.drop_drop]
  simp only [readJsonChar, value, if_pos first, six, ten, behind, List.drop_succ_cons,
    List.drop_zero, lowValue, lowBehind, sum, Char.ofNat_toNat]

/-- What is written for a character is read as it, whatever follows. -/
theorem readJsonChar_append (c : Char) (rest : List Char) :
    readJsonChar (jsonChar c ++ rest) = some (c, rest) := by
  unfold jsonChar
  split_ifs with escaped feed ret tab back form plain short
  · rcases escaped with rfl | rfl <;> rfl
  · rw [feed]; rfl
  · rw [ret]; rfl
  · rw [tab]; rfl
  · rw [back]; rfl
  · rw [form]; rfl
  · rw [not_or] at escaped
    simp [readJsonChar, escaped.2]
  · exact readJsonChar_unit short rest
  · have range : c.toNat < 0xd800 ∨ 0xdfff < c.toNat ∧ c.toNat < 0x110000 := c.valid
    exact readJsonChar_pair (by omega) (by omega) (by omega) rest

/-! ### Strings -/

theorem selfDelimiting_jsonChar : SelfDelimiting jsonChar :=
  .of_read readJsonChar_append

/-- No character is written with a quote in front. -/
private theorem exists_jsonChar_eq_cons (c : Char) :
    ∃ first others, jsonChar c = first :: others ∧ first ≠ '"' := by
  unfold jsonChar
  split_ifs with escaped
  all_goals first
    | exact ⟨_, _, rfl, by decide⟩
    | exact ⟨_, _, rfl, fun quote => escaped (.inl quote)⟩

theorem toList_jsonString (s : String) :
    (jsonString s).toList = '"' :: (s.toList.flatMap jsonChar ++ ['"']) := by
  simp [jsonString]

theorem selfDelimiting_jsonString : SelfDelimiting fun s => (jsonString s).toList := by
  intro s t r r' same
  simp only [toList_jsonString, List.cons_append, List.cons.injEq, true_and] at same
  obtain ⟨chars, rest⟩ := selfDelimiting_jsonChar.closed exists_jsonChar_eq_cons same
  exact ⟨String.toList_inj.mp chars, rest⟩

/-! ### Objects -/

def fieldLine (indent : Nat) (field : String × String) : List Char :=
  List.replicate indent ' ' ++ ' ' :: ' ' :: ((jsonString field.1).toList ++
    ':' :: ' ' :: field.2.toList)

/-- The fields behind the first one, and the end of the object. -/
def fieldsTail (indent : Nat) (fields : List (String × String)) : List Char :=
  fields.flatMap (fun field => ',' :: '\n' :: fieldLine indent field) ++
    '\n' :: (List.replicate indent ' ' ++ ['\x7d'])

private theorem toList_intercalate_fields (indent : Nat) (first : String × String)
    (others : List (String × String)) :
    (String.intercalate ",\n" ((first :: others).map fun field =>
        String.ofList (List.replicate indent ' ') ++ "  " ++ jsonString field.1 ++ ": "
          ++ field.2)).toList
      = fieldLine indent first
        ++ others.flatMap fun field => ',' :: '\n' :: fieldLine indent field := by
  induction others generalizing first with
  | nil => simp [fieldLine]
  | cons second others ih =>
    have rest := ih second
    simp only [List.map_cons, String.intercalate_cons_cons, String.toList_append] at rest ⊢
    rw [rest]
    simp [fieldLine]

theorem toList_jsonObject (indent : Nat) (first : String × String)
    (others : List (String × String)) :
    (jsonObject indent (first :: others)).toList
      = '\x7b' :: '\n' :: (fieldLine indent first ++ fieldsTail indent others) := by
  simp only [jsonObject, String.toList_append, toList_intercalate_fields]
  simp [fieldsTail]

end Calculator.Text
