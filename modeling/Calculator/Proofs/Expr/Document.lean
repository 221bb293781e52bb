import Calculator.Proofs.Expr.Json
import Calculator.Proofs.Statement.RoundTrip
import Calculator.Proofs.Text.JsonGrammar

/-!
# The text of a tree as a document

Every string, integer and finite real of a tree is written as the grammar of JSON has it, and so
is every object that is built of such texts. An infinity is written as a word that the grammar
does not know: its capital letter stands outside all strings.

## Main result

`isDocument_json_iff`: the text of a tree is a document exactly when all its reals are finite.
-/

namespace Calculator

/-! ### Strings -/

namespace Text

private theorem mem_toDigits_sixteen {n : Nat} {c : Char} (member : c ∈ Nat.toDigits 16 n) :
    Token.isDigit c = true ∨ c ∈ "abcdefABCDEF".toList := by
  have digit : ∀ k < 16, Token.isDigit k.digitChar = true ∨
      k.digitChar ∈ "abcdefABCDEF".toList := by decide
  induction n using Nat.strongRecOn with
  | ind n ih =>
    rcases Nat.lt_or_ge n 16 with small | large
    · rw [Nat.toDigits_of_lt_base small, List.mem_singleton] at member
      rw [member]
      exact digit n small
    · rw [Nat.toDigits_of_base_le (by decide) large, List.mem_append, List.mem_singleton] at member
      rcases member with earlier | rfl
      · exact ih (n / 16) (by omega) earlier
      · exact digit (n % 16) (Nat.mod_lt n (by decide))

theorem isCharacter_jsonUnit {n : Nat} (fits : n < 0x10000) : Json.IsCharacter (jsonUnit n) := by
  refine .unit (length_hexDigits (by decide) fits) ?_
  intro c member
  rcases List.mem_append.mp member with padding | digit
  · rw [List.eq_of_mem_replicate padding]
    exact .inl (by decide)
  · exact mem_toDigits_sixteen digit

/-- A character is written as one character of the grammar, or as two. -/
private theorem exists_characters (c : Char) :
    ∃ characters : List (List Char), (∀ text ∈ characters, Json.IsCharacter text) ∧
      jsonChar c = characters.flatten := by
  have single {text : List Char} (character : Json.IsCharacter text) :
      ∃ characters : List (List Char), (∀ text ∈ characters, Json.IsCharacter text) ∧
        text = characters.flatten :=
    ⟨[text], by simpa using character, by simp⟩
  unfold jsonChar
  split_ifs with escaped _ _ _ _ _ plain short
  · rcases escaped with rfl | rfl
    · exact single (.short (by decide))
    · exact single (.short (by decide))
  · exact single (.short (by decide))
  · exact single (.short (by decide))
  · exact single (.short (by decide))
  · exact single (.short (by decide))
  · exact single (.short (by decide))
  · -- Whatever is left below DEL needs no escape.
    rw [not_or] at escaped
    exact single (.plain plain.1 escaped.1 escaped.2)
  · exact single (isCharacter_jsonUnit short)
  · -- Beyond the first plane the two halves are units of four digits each.
    have range : c.toNat < 0xd800 ∨ 0xdfff < c.toNat ∧ c.toNat < 0x110000 := c.valid
    have high : 0xd800 + (c.toNat - 0x10000) / 0x400 < 0x10000 := by omega
    have low : 0xdc00 + (c.toNat - 0x10000) % 0x400 < 0x10000 := by omega
    have units := List.forall_mem_cons.mpr
      ⟨isCharacter_jsonUnit high, List.forall_mem_singleton.mpr (isCharacter_jsonUnit low)⟩
    exact ⟨_, units, by simp⟩

theorem isString_jsonString (s : String) : Json.IsString (jsonString s).toList := by
  rw [toList_jsonString]
  suffices inner : ∃ characters : List (List Char),
      (∀ text ∈ characters, Json.IsCharacter text) ∧
        s.toList.flatMap jsonChar = characters.flatten by
    obtain ⟨characters, each, text⟩ := inner
    exact ⟨characters, each, by rw [text]⟩
  induction s.toList with
  | nil => exact ⟨[], by simp⟩
  | cons c rest ih =>
    obtain ⟨first, each, text⟩ := exists_characters c
    obtain ⟨others, eachOther, textOther⟩ := ih
    refine ⟨first ++ others, List.forall_mem_append.mpr ⟨each, eachOther⟩, ?_⟩
    rw [List.flatMap_cons, text, textOther, List.flatten_append]

/-! ### Objects -/

theorem isBlank_nil : Json.IsBlank [] :=
  List.forall_mem_nil _

private theorem isBlank_margin (n : Nat) : Json.IsBlank (List.replicate n ' ') := by
  intro c member
  rw [List.eq_of_mem_replicate member]
  decide

private theorem isBlank_line {text : List Char} (blank : Json.IsBlank text) :
    Json.IsBlank ('\n' :: text) :=
  List.forall_mem_cons.mpr ⟨by decide, blank⟩

/-- The margin in front of a field belongs to the mark on the line before. -/
private theorem isMark_field {mark : Char} (indent : Nat) :
    Json.IsMark mark (mark :: '\n' :: (List.replicate indent ' ' ++ [' ', ' '])) := by
  refine ⟨[], _, isBlank_nil, isBlank_line ?_, rfl⟩
  exact List.forall_mem_append.mpr ⟨isBlank_margin indent, isBlank_margin 2⟩

private theorem isMark_close (indent : Nat) :
    Json.IsMark '\x7d' ('\n' :: (List.replicate indent ' ' ++ ['\x7d'])) :=
  ⟨_, [], isBlank_line (isBlank_margin indent), isBlank_nil, by simp⟩

/-- The fields behind the first one, up to the end of the object. -/
private theorem spells_fields (indent : Nat) {first : String × String}
    {others : List (String × String)}
    (values : ∀ field ∈ first :: others, Json.Spells .value field.2.toList) :
    ∃ members, Json.Spells .members members ∧
      fieldLine indent first ++ fieldsTail indent others
        = List.replicate indent ' ' ++ [' ', ' '] ++ (members ++
          '\n' :: (List.replicate indent ' ' ++ ['\x7d'])) := by
  have key := isString_jsonString first.1
  have colon : Json.IsMark ':' [':', ' '] := ⟨[], [' '], isBlank_nil, isBlank_margin 1, rfl⟩
  have value := values first List.mem_cons_self
  -- The margin of each further field goes to the comma in front of it.
  induction others generalizing first with
  | nil => exact ⟨_, .lastMember key colon value, by simp [fieldLine, fieldsTail]⟩
  | cons second others ih =>
    have later := fun field member => values field (List.mem_cons_of_mem first member)
    obtain ⟨members, spells, text⟩ := ih later (isString_jsonString second.1)
      (later second List.mem_cons_self)
    refine ⟨_, .member key colon value (isMark_field indent) spells, ?_⟩
    have tail : fieldsTail indent (second :: others)
        = ',' :: '\n' :: (fieldLine indent second ++ fieldsTail indent others) := by
      simp [fieldsTail]
    rw [tail, text]
    simp [fieldLine]

/-- An object whose fields hold values is a value. -/
theorem spells_jsonObject {indent : Nat} {first : String × String}
    {others : List (String × String)}
    (values : ∀ field ∈ first :: others, Json.Spells .value field.2.toList) :
    Json.Spells .value (jsonObject indent (first :: others)).toList := by
  obtain ⟨members, spells, text⟩ := spells_fields indent values
  have object := Json.Spells.object (isMark_field indent) spells (isMark_close indent)
  rw [toList_jsonObject, text]
  simpa using object

end Text

/-! ### Numbers -/

open Json

namespace Layout

variable {first : Char} {rest : List Char}

private theorem isDigits_zero : IsDigits ['0'] :=
  ⟨List.cons_ne_nil _ _, List.forall_mem_singleton.mpr rfl⟩

private theorem isDigit_of_mem_zeros {n : Nat} {c : Char} (member : c ∈ List.replicate n '0') :
    Token.isDigit c = true := by
  rw [List.eq_of_mem_replicate member]
  rfl

/-- Significant digits with a point before, among or behind them. -/
theorem isMagnitude_positional (digit : Token.isDigit first = true) (nonzero : first ≠ '0')
    (run : ∀ c ∈ rest, Token.isDigit c = true) (leading : Int) :
    IsMagnitude (positional leading (first :: rest)) := by
  have all : ∀ c ∈ first :: rest, Token.isDigit c = true := List.forall_mem_cons.mpr ⟨digit, run⟩
  by_cases below : leading < 0
  · -- All significant digits stand behind the point, with zeros before them.
    have fraction : IsDigits (List.replicate (-leading - 1).toNat '0' ++ first :: rest) :=
      ⟨by simp, List.forall_mem_append.mpr ⟨fun _ => isDigit_of_mem_zeros, all⟩⟩
    have text : positional leading (first :: rest)
        = ['0'] ++ ('.' :: (List.replicate (-leading - 1).toNat '0' ++ first :: rest) ++ []) := by
      simp [positional, below]
    exact ⟨_, _, [], text, .inl rfl, .inr ⟨_, rfl, fraction⟩, .inl rfl⟩
  · -- Digits up to the point, zeros where they do not reach it, and a zero behind it at least.
    generalize size : leading.toNat + 1 = width
    have whole : IsWhole (((first :: rest).take width).rightpad width '0') := by
      refine .inr ⟨⟨?_, ?_⟩, ?_⟩
      · simp [List.rightpad, ← size]
      · exact List.forall_mem_append.mpr ⟨fun c member => all c (List.mem_of_mem_take member),
          fun _ => isDigit_of_mem_zeros⟩
      · simpa [List.rightpad, ← size] using nonzero
    have fraction : IsDigits (if (first :: rest).drop width = [] then ['0']
        else (first :: rest).drop width) := by
      split_ifs with short
      · exact isDigits_zero
      · exact ⟨short, fun c member => all c (List.mem_of_mem_drop member)⟩
    have text : positional leading (first :: rest)
        = ((first :: rest).take width).rightpad width '0'
          ++ ('.' :: (if (first :: rest).drop width = [] then ['0']
            else (first :: rest).drop width) ++ []) := by
      rw [positional, if_neg below, size, List.append_nil]
    exact ⟨_, _, [], text, whole, .inr ⟨_, rfl, fraction⟩, .inl rfl⟩

/-- One significant digit before the point, and a power of ten. -/
theorem isMagnitude_scientific (digit : Token.isDigit first = true) (nonzero : first ≠ '0')
    (run : ∀ c ∈ rest, Token.isDigit c = true) (width : Nat) (leading : Int) :
    IsMagnitude (scientific width leading (first :: rest)) := by
  have whole : IsWhole [first] :=
    .inr ⟨⟨List.cons_ne_nil _ _, List.forall_mem_singleton.mpr digit⟩, by simpa using nonzero⟩
  have fraction : IsFraction (if rest = [] then [] else '.' :: rest) := by
    split_ifs with short
    · exact .inl rfl
    · exact .inr ⟨rest, rfl, short, run⟩
  have exponent : IsExponent ('e' :: ([if leading < 0 then '-' else '+'] ++
      (Nat.toDigits 10 leading.natAbs).leftpad width '0')) := by
    refine .inr ⟨_, _, _, rfl, List.mem_cons_self, ?_, ?_, fun _ => Decimal.isDigit_of_mem_leftpad⟩
    · split_ifs <;> simp
    · simp [List.leftpad]
  exact ⟨_, _, _, rfl, whole, fraction, exponent⟩

private theorem isMagnitude_write (layout : Layout) {d : Decimal} (nonzero : d.coefficient ≠ 0) :
    IsMagnitude (layout.write d) := by
  obtain ⟨first, rest, digits, digit, leading, run⟩ := exists_significantDigits_eq_cons nonzero
  simp only [write, digits]
  split_ifs
  · exact isMagnitude_positional digit leading run _
  · exact isMagnitude_scientific digit leading run _ _

end Layout

theorem isNumber_integerText (n : Int) : IsNumber (integerText n).toList := by
  have magnitude : IsMagnitude (Nat.toDigits 10 n.natAbs) := by
    refine ⟨Nat.toDigits 10 n.natAbs, [], [], by simp, ?_, .inl rfl, .inl rfl⟩
    rcases Nat.eq_zero_or_pos n.natAbs with zero | positive
    · rw [zero]
      exact .inl rfl
    · obtain ⟨first, rest, digits, leading⟩ := exists_toDigits_eq_cons positive.ne'
      refine .inr ⟨⟨Nat.toDigits_ne_nil, fun c => Token.isDigit_of_mem_toDigits⟩, ?_⟩
      rw [digits]
      simpa using leading
  refine ⟨_, magnitude, ?_⟩
  by_cases negative : n < 0
  · exact .inr (by simp [integerText, negative])
  · exact .inl (by simp [integerText, negative])

private theorem Binary.isMagnitude_doubleMagnitude {q : Rat} (nonneg : 0 ≤ q)
    (number : Format.double.ofRat q = .number q) : IsMagnitude (doubleMagnitude q) := by
  rcases nonneg.eq_or_lt with rfl | positive
  · have text : doubleMagnitude 0 = ['0', '.', '0'] := by decide +kernel
    rw [text]
    exact ⟨['0'], ['.', '0'], [], rfl, .inl rfl, .inr ⟨['0'], rfl, Layout.isDigits_zero⟩, .inl rfl⟩
  · exact Layout.real.isMagnitude_write (Format.coefficient_shortestDouble_ne_zero positive number)

/-- A finite datum is written as a number. -/
theorem Binary.isNumber_doubleText {x : Binary} (fits : Format.double.round x = x)
    (finite : x.IsFinite) : IsNumber x.doubleText.toList := by
  cases x with
  | infinity | nan => cases finite
  | negativeZero =>
    have zero := isMagnitude_doubleMagnitude (le_refl 0) (Format.ofRat_zero Format.double)
    exact ⟨_, zero, .inr (by simp [doubleText, write, isNegative])⟩
  | number q =>
    by_cases negative : q < 0
    · have magnitude := Format.ofRat_abs (by decide) negative.ne fits
      refine ⟨_, isMagnitude_doubleMagnitude (abs_nonneg q) magnitude, .inr ?_⟩
      simp [doubleText, write, isNegative, negative, rat_abs_eq_abs]
    · refine ⟨_, isMagnitude_doubleMagnitude (not_lt.mp negative) fits, .inl ?_⟩
      simp [doubleText, write, isNegative, negative, rat_abs_eq_abs,
        abs_of_nonneg (not_lt.mp negative)]

/-! ### Trees -/

namespace Expr

def IsFinite (e : Expr) : Prop :=
  e.EveryReal Binary.IsFinite

/-- The kind of a node is a field like all others. -/
theorem spells_of_fields {e : Expr} {indent : Nat}
    (values : ∀ field ∈ e.fieldsAt indent, Spells .value field.2.toList) :
    Spells .value (e.jsonAt indent).toList := by
  have kind : Spells .value (Text.jsonString e.kindName).toList :=
    .string (Text.isString_jsonString _)
  rw [jsonAt_eq]
  exact Text.spells_jsonObject (List.forall_mem_cons.mpr ⟨kind, values⟩)

private theorem spells_jsonAt {e : Expr} (doubles : e.HoldsDoubles) (finite : e.IsFinite)
    (indent : Nat) :
    Spells .value (e.jsonAt indent).toList := by
  have string (s : String) : Spells .value (Text.jsonString s).toList :=
    .string (Text.isString_jsonString s)
  induction e generalizing indent with
  | identifier x =>
    apply spells_of_fields
    simpa [fieldsAt] using string x
  | integer n =>
    apply spells_of_fields
    simpa [fieldsAt] using .number (isNumber_integerText n)
  | real x =>
    apply spells_of_fields
    simpa [fieldsAt] using .number (Binary.isNumber_doubleText doubles finite)
  | unary op operand ih =>
    apply spells_of_fields
    simpa [fieldsAt] using ⟨string op.name, ih doubles finite (indent + 2)⟩
  | binary op left right ihLeft ihRight =>
    apply spells_of_fields
    simpa [fieldsAt] using ⟨string op.name, ihLeft doubles.1 finite.1 (indent + 2),
      ihRight doubles.2 finite.2 (indent + 2)⟩
  | blank =>
    apply spells_of_fields
    simp [fieldsAt]

end Expr

/-! ### Words that are no numbers -/

namespace Text

variable {indent : Nat} {name value : String} {rest : List Char}

private theorem isStructured_jsonString (s : String) (rest : List Char) :
    isStructured .outside ((jsonString s).toList ++ rest) = isStructured .outside rest :=
  (isString_jsonString s).isTransparent rest

private theorem isStructured_margin (n : Nat) (rest : List Char) :
    isStructured .outside (List.replicate n ' ' ++ rest) = isStructured .outside rest :=
  (isBlank_margin n).isTransparent rest

/-- A scan of a field comes to its value. -/
private theorem isStructured_fieldLine :
    isStructured .outside (fieldLine indent (name, value) ++ rest)
      = isStructured .outside (value.toList ++ rest) := by
  have blank (s : List Char) : isStructured .outside (' ' :: s) = isStructured .outside s := rfl
  have colon (s : List Char) : isStructured .outside (':' :: s) = isStructured .outside s := rfl
  simp only [fieldLine, List.append_assoc, List.cons_append, isStructured_margin, blank,
    isStructured_jsonString, colon]

private theorem isStructured_fieldsTail_cons {others : List (String × String)} :
    isStructured .outside (fieldsTail indent ((name, value) :: others) ++ rest)
      = isStructured .outside (value.toList ++ (fieldsTail indent others ++ rest)) := by
  have comma (s : List Char) :
      isStructured .outside (',' :: '\n' :: s) = isStructured .outside s := rfl
  have tail : fieldsTail indent ((name, value) :: others)
      = ',' :: '\n' :: (fieldLine indent (name, value) ++ fieldsTail indent others) := by
    simp [fieldsTail]
  simp only [tail, List.cons_append, List.append_assoc, comma, isStructured_fieldLine]

private theorem isStructured_fieldsTail_nil :
    isStructured .outside (fieldsTail indent [] ++ rest) = isStructured .outside rest := by
  have feed (s : List Char) : isStructured .outside ('\n' :: s) = isStructured .outside s := rfl
  have brace (s : List Char) : isStructured .outside ('\x7d' :: s) = isStructured .outside s := rfl
  simp only [fieldsTail, List.flatMap_nil, List.nil_append, List.cons_append, List.append_assoc,
    feed, isStructured_margin, brace]

end Text

namespace Binary

/-- A scan passes the text of a datum only if the datum is finite. -/
theorem isFinite_of_isStructured {x : Binary} {rest : List Char}
    (structured : isStructured .outside (x.doubleText.toList ++ rest) = true) : x.IsFinite := by
  cases x with
  | number | negativeZero => trivial
  | nan => cases structured
  | infinity negative => cases negative <;> cases structured

end Binary

namespace Expr

private theorem isStructured_jsonAt (e : Expr) (indent : Nat) (rest : List Char) :
    isStructured .outside ((e.jsonAt indent).toList ++ rest)
      = isStructured .outside (Text.fieldsTail indent (e.fieldsAt indent) ++ rest) := by
  have opening (s : List Char) :
      isStructured .outside ('\x7b' :: '\n' :: s) = isStructured .outside s := rfl
  simp only [toList_jsonAt, List.cons_append, opening, List.append_assoc,
    Text.isStructured_fieldLine, Text.isStructured_jsonString]

/-- A scan passes the text of a tree only if the tree is finite. -/
theorem isFinite_of_isStructured {e : Expr} (doubles : e.HoldsDoubles) {indent : Nat}
    {rest : List Char}
    (structured : isStructured .outside ((e.jsonAt indent).toList ++ rest) = true) :
    e.IsFinite ∧ isStructured .outside rest = true := by
  -- The scan comes to what stands behind the tree, so that a right operand is reached through the
  -- left one.
  induction e generalizing indent rest with
  | identifier x =>
    simp only [isStructured_jsonAt, fieldsAt, Text.isStructured_fieldsTail_cons,
      Text.isStructured_jsonString, Text.isStructured_fieldsTail_nil] at structured
    exact ⟨trivial, structured⟩
  | integer n =>
    simp only [isStructured_jsonAt, fieldsAt, Text.isStructured_fieldsTail_cons,
      (isNumber_integerText n).isTransparent _, Text.isStructured_fieldsTail_nil] at structured
    exact ⟨trivial, structured⟩
  | real x =>
    simp only [isStructured_jsonAt, fieldsAt, Text.isStructured_fieldsTail_cons] at structured
    have finite := Binary.isFinite_of_isStructured structured
    rw [(Binary.isNumber_doubleText doubles finite).isTransparent,
      Text.isStructured_fieldsTail_nil] at structured
    exact ⟨finite, structured⟩
  | unary op operand ih =>
    rw [isStructured_jsonAt] at structured
    simp only [fieldsAt, Text.isStructured_fieldsTail_cons, Text.isStructured_jsonString]
      at structured
    obtain ⟨finite, behind⟩ := ih doubles structured
    exact ⟨finite, by rwa [Text.isStructured_fieldsTail_nil] at behind⟩
  | binary op left right ihLeft ihRight =>
    rw [isStructured_jsonAt] at structured
    simp only [fieldsAt, Text.isStructured_fieldsTail_cons, Text.isStructured_jsonString]
      at structured
    obtain ⟨first, behind⟩ := ihLeft doubles.1 structured
    rw [Text.isStructured_fieldsTail_cons] at behind
    obtain ⟨second, last⟩ := ihRight doubles.2 behind
    rw [Text.isStructured_fieldsTail_nil] at last
    exact ⟨⟨first, second⟩, last⟩
  | blank =>
    simp only [isStructured_jsonAt, fieldsAt, Text.isStructured_fieldsTail_nil] at structured
    exact ⟨trivial, structured⟩

/-- The text of a tree is a document exactly when all reals of the tree are finite. -/
theorem isDocument_json_iff {e : Expr} (doubles : e.HoldsDoubles) :
    IsDocument e.json.toList ↔ e.IsFinite := by
  constructor
  · intro document
    -- The letters of an infinity are structural but for the first one.
    have structured := document.isStructured
    rw [json, ← List.append_nil (e.jsonAt 0).toList] at structured
    exact (isFinite_of_isStructured doubles structured).1
  · intro finite
    exact ⟨[], _, [], Text.isBlank_nil, Text.isBlank_nil, spells_jsonAt doubles finite 0,
      by rw [List.nil_append, List.append_nil, json]⟩

end Expr

end Calculator
