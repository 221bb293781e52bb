import Calculator.Token.Scan
import Mathlib.Data.List.Basic

/-!
# The grammar of JSON

The standard grammar, read off its rules: a document is one value between blanks; a value is a
word, a number, a string, or items or members between brackets or braces; marks of the structure
may have blanks around them. A number has no zero in front of other digits, a point in it stands
between digits, and it is always finite. Outside the strings of a document only a few characters
can stand, so that a single other one shows that a text is no document.
-/

namespace Calculator.Json

open Token (isDigit)

/-! ### Words of the grammar -/

/-- Blanks: spaces, tabs, line feeds and carriage returns. -/
def IsBlank (text : List Char) : Prop :=
  ∀ c ∈ text, c ∈ [' ', '\t', '\n', '\r']

/-- A mark of the structure with the blanks around it. -/
def IsMark (mark : Char) (text : List Char) : Prop :=
  ∃ before after, IsBlank before ∧ IsBlank after ∧ text = before ++ mark :: after

def IsDigits (text : List Char) : Prop :=
  text ≠ [] ∧ ∀ c ∈ text, isDigit c = true

/-- The digits before the point: a zero, or digits that begin with no zero. -/
def IsWhole (text : List Char) : Prop :=
  text = ['0'] ∨ IsDigits text ∧ text.head? ≠ some '0'

def IsFraction (text : List Char) : Prop :=
  text = [] ∨ ∃ digits, text = '.' :: digits ∧ IsDigits digits

def IsExponent (text : List Char) : Prop :=
  text = [] ∨ ∃ mark sign digits, text = mark :: (sign ++ digits) ∧ mark ∈ ['e', 'E'] ∧
    sign ∈ [[], ['-'], ['+']] ∧ IsDigits digits

/-- A number without its sign. -/
def IsMagnitude (text : List Char) : Prop :=
  ∃ whole fraction exponent, text = whole ++ (fraction ++ exponent) ∧ IsWhole whole ∧
    IsFraction fraction ∧ IsExponent exponent

def IsNumber (text : List Char) : Prop :=
  ∃ magnitude, IsMagnitude magnitude ∧ (text = magnitude ∨ text = '-' :: magnitude)

/-- One character of a string: itself, a short form, or a unit of four digits. -/
inductive IsCharacter : List Char → Prop
  | plain {c : Char} (visible : ' ' ≤ c) (noQuote : c ≠ '"') (noEscape : c ≠ '\\') :
      IsCharacter [c]
  | short {c : Char} (known : c ∈ ['"', '\\', '/', 'b', 'f', 'n', 'r', 't']) :
      IsCharacter ['\\', c]
  | unit {digits : List Char} (four : digits.length = 4)
      (hexadecimal : ∀ c ∈ digits, isDigit c = true ∨ c ∈ "abcdefABCDEF".toList) :
      IsCharacter ('\\' :: 'u' :: digits)

def IsString (text : List Char) : Prop :=
  ∃ characters : List (List Char), (∀ character ∈ characters, IsCharacter character) ∧
    text = '"' :: (characters.flatten ++ ['"'])

/-! ### Values -/

/-- The parts of a document that hold one another. -/
inductive Part where
  | value
  | items
  | members
  deriving DecidableEq, Repr

/-- The text spells a part of a document. -/
inductive Spells : Part → List Char → Prop
  | word {text : List Char} (known : text ∈ ["false".toList, "null".toList, "true".toList]) :
      Spells .value text
  | number {text : List Char} (number : IsNumber text) : Spells .value text
  | string {text : List Char} (string : IsString text) : Spells .value text
  | emptyArray {opening closing : List Char} (opens : IsMark '[' opening)
      (closes : IsMark ']' closing) : Spells .value (opening ++ closing)
  | array {opening inner closing : List Char} (opens : IsMark '[' opening)
      (items : Spells .items inner) (closes : IsMark ']' closing) :
      Spells .value (opening ++ (inner ++ closing))
  | emptyObject {opening closing : List Char} (opens : IsMark '\x7b' opening)
      (closes : IsMark '\x7d' closing) : Spells .value (opening ++ closing)
  | object {opening inner closing : List Char} (opens : IsMark '\x7b' opening)
      (members : Spells .members inner) (closes : IsMark '\x7d' closing) :
      Spells .value (opening ++ (inner ++ closing))
  | lastItem {text : List Char} (value : Spells .value text) : Spells .items text
  | item {text comma others : List Char} (value : Spells .value text) (mark : IsMark ',' comma)
      (rest : Spells .items others) : Spells .items (text ++ (comma ++ others))
  | lastMember {name colon text : List Char} (key : IsString name) (mark : IsMark ':' colon)
      (value : Spells .value text) : Spells .members (name ++ (colon ++ text))
  | member {name colon text comma others : List Char} (key : IsString name)
      (mark : IsMark ':' colon) (value : Spells .value text) (separator : IsMark ',' comma)
      (rest : Spells .members others) :
      Spells .members (name ++ (colon ++ text) ++ (comma ++ others))

/-- A document is one value with blanks around it. -/
def IsDocument (text : List Char) : Prop :=
  ∃ before value after, IsBlank before ∧ IsBlank after ∧ Spells .value value ∧
    text = before ++ (value ++ after)

/-! ### What stands outside the strings -/

/-- The characters that can stand outside the strings of a document. -/
def isStructural (c : Char) : Bool :=
  isDigit c || "\x7b\x7d[]:,+-.eE \t\n\rfalsenutr".toList.contains c

/-- Where a scan of a document stands. -/
inductive Position where
  | outside
  | inside
  | escaped
  deriving DecidableEq, Repr

/-- Whether only structural characters stand outside the strings of a text. -/
def isStructured : Position → List Char → Bool
  | _, [] => true
  | .outside, c :: rest =>
    if c = '"' then isStructured .inside rest
    else isStructural c && isStructured .outside rest
  | .inside, c :: rest =>
    if c = '"' then isStructured .outside rest
    else if c = '\\' then isStructured .escaped rest
    else isStructured .inside rest
  | .escaped, _ :: rest => isStructured .inside rest

/-- A scan passes the text and stands outside the strings again. -/
def IsTransparent (text : List Char) : Prop :=
  ∀ rest, isStructured .outside (text ++ rest) = isStructured .outside rest

private theorem isStructured_cons {c : Char} (structural : isStructural c = true)
    (rest : List Char) :
    isStructured .outside (c :: rest) = isStructured .outside rest := by
  have noQuote : c ≠ '"' := by
    rintro rfl
    exact absurd structural (by decide)
  rw [isStructured, if_neg noQuote, structural, Bool.true_and]

private theorem isStructural_of_isDigit {c : Char} (digit : isDigit c = true) :
    isStructural c = true := by
  rw [isStructural, digit, Bool.true_or]

namespace IsTransparent

variable {a b text : List Char}

theorem append (first : IsTransparent a) (second : IsTransparent b) : IsTransparent (a ++ b) := by
  intro rest
  rw [List.append_assoc, first, second]

private theorem of_structural (all : ∀ c ∈ text, isStructural c = true) : IsTransparent text := by
  intro rest
  induction text with
  | nil => rfl
  | cons c others ih =>
    rw [List.cons_append, isStructured_cons (all c List.mem_cons_self)]
    exact ih fun d member => all d (List.mem_cons_of_mem c member)

end IsTransparent

/-! ### Words of the grammar are passed -/

private theorem isStructured_inside {text : List Char} (ordinary : ∀ c ∈ text, c ≠ '"' ∧ c ≠ '\\')
    (rest : List Char) : isStructured .inside (text ++ rest) = isStructured .inside rest := by
  induction text with
  | nil => rfl
  | cons c others ih =>
    obtain ⟨noQuote, noEscape⟩ := ordinary c List.mem_cons_self
    rw [List.cons_append, isStructured, if_neg noQuote, if_neg noEscape]
    exact ih fun d member => ordinary d (List.mem_cons_of_mem c member)

theorem IsCharacter.passed {text : List Char} (character : IsCharacter text) (rest : List Char) :
    isStructured .inside (text ++ rest) = isStructured .inside rest := by
  cases character with
  | plain _ noQuote noEscape =>
    apply isStructured_inside
    intro d member
    rw [List.mem_singleton.mp member]
    exact ⟨noQuote, noEscape⟩
  | short => rfl
  | @unit digits _ hexadecimal =>
    change isStructured .inside (digits ++ rest) = _
    apply isStructured_inside
    intro d member
    constructor
    all_goals
      rintro rfl
      exact absurd (hexadecimal _ member) (by decide)

theorem IsString.isTransparent {text : List Char} (string : IsString text) :
    IsTransparent text := by
  obtain ⟨characters, each, rfl⟩ := string
  intro rest
  -- No character of a string ends it, whatever its form.
  have inner : isStructured .inside (characters.flatten ++ '"' :: rest)
      = isStructured .outside rest := by
    induction characters with
    | nil => rfl
    | cons character others ih =>
      rw [List.flatten_cons, List.append_assoc, (each character List.mem_cons_self).passed]
      exact ih fun other member => each other (List.mem_cons_of_mem character member)
  simpa [isStructured] using inner

theorem IsBlank.isTransparent {text : List Char} (blank : IsBlank text) : IsTransparent text := by
  apply IsTransparent.of_structural
  intro c member
  have known := blank c member
  simp only [List.mem_cons, List.not_mem_nil, or_false] at known
  rcases known with rfl | rfl | rfl | rfl <;> decide

theorem IsMark.isTransparent {mark : Char} {text : List Char} (is : IsMark mark text)
    (structural : isStructural mark = true) : IsTransparent text := by
  obtain ⟨before, after, left, right, rfl⟩ := is
  refine left.isTransparent.append ?_
  intro rest
  rw [List.cons_append, isStructured_cons structural, right.isTransparent]

private theorem IsDigits.isStructural {text : List Char} (digits : IsDigits text) :
    ∀ c ∈ text, isStructural c = true :=
  fun c member => isStructural_of_isDigit (digits.2 c member)

theorem IsExponent.isTransparent {text : List Char} (exponent : IsExponent text) :
    IsTransparent text := by
  rcases exponent with rfl | ⟨mark, sign, digits, rfl, known, signed, run⟩
  · exact .of_structural (by simp)
  · have marked : Json.isStructural mark = true := by
      rcases List.mem_pair.mp known with rfl | rfl <;> decide
    have signs : ∀ c ∈ sign, Json.isStructural c = true := by
      simp only [List.mem_cons, List.not_mem_nil, or_false] at signed
      rcases signed with rfl | rfl | rfl <;> exact List.all_eq_true.mp rfl
    exact .of_structural (List.forall_mem_cons.mpr
      ⟨marked, List.forall_mem_append.mpr ⟨signs, run.isStructural⟩⟩)

theorem IsMagnitude.isTransparent {text : List Char} (magnitude : IsMagnitude text) :
    IsTransparent text := by
  obtain ⟨whole, fraction, exponent, rfl, isWhole, isFraction, isExponent⟩ := magnitude
  have digits : IsTransparent whole := by
    rcases isWhole with rfl | ⟨digits, -⟩
    · exact .of_structural (List.all_eq_true.mp rfl)
    · exact .of_structural digits.isStructural
  have point : IsTransparent fraction := by
    rcases isFraction with rfl | ⟨behind, rfl, digits⟩
    · exact .of_structural (by simp)
    · exact .of_structural (List.forall_mem_cons.mpr ⟨by decide, digits.isStructural⟩)
  exact digits.append (point.append isExponent.isTransparent)

theorem IsNumber.isTransparent {text : List Char} (number : IsNumber text) :
    IsTransparent text := by
  obtain ⟨magnitude, is, rfl | rfl⟩ := number
  · exact is.isTransparent
  · -- The minus sign is structural by itself.
    intro rest
    rw [List.cons_append, isStructured_cons (by decide), is.isTransparent]

/-- A scan passes every part of a document. -/
theorem Spells.isTransparent {part : Part} {text : List Char} (spells : Spells part text) :
    IsTransparent text := by
  induction spells with
  | word known =>
    simp only [List.mem_cons, List.not_mem_nil, or_false] at known
    rcases known with rfl | rfl | rfl <;> exact .of_structural (List.all_eq_true.mp rfl)
  | number number => exact number.isTransparent
  | string string => exact string.isTransparent
  | emptyArray opens closes | emptyObject opens closes =>
    exact (opens.isTransparent (by decide)).append (closes.isTransparent (by decide))
  | array opens _ closes inner | object opens _ closes inner =>
    exact (opens.isTransparent (by decide)).append
      (inner.append (closes.isTransparent (by decide)))
  | lastItem _ value => exact value
  | item _ mark _ value rest => exact value.append ((mark.isTransparent (by decide)).append rest)
  | lastMember key mark _ value =>
    exact key.isTransparent.append ((mark.isTransparent (by decide)).append value)
  | member key mark _ separator _ value rest =>
    exact (key.isTransparent.append ((mark.isTransparent (by decide)).append value)).append
      ((separator.isTransparent (by decide)).append rest)

theorem IsDocument.isStructured {text : List Char} (document : IsDocument text) :
    isStructured .outside text = true := by
  obtain ⟨before, value, after, left, right, spells, rfl⟩ := document
  have whole := left.isTransparent.append (spells.isTransparent.append right.isTransparent)
  have passed := whole []
  rwa [List.append_nil] at passed

end Calculator.Json
