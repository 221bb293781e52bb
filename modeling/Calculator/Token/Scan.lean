import Calculator.Text.Blank
import Calculator.Token

/-!
# Scanning a statement

A statement is cut into tokens from left to right. At each position the longest lexeme
is taken: a run of digits, which a point with the digits after it extends to a real
numeral; a run of letters, digits and underscores that begins with no digit; or one
symbol. Blanks separate tokens. Digits and letters are those of ASCII.
-/

namespace Calculator.Token

def isDigit (c : Char) : Bool :=
  '0' ≤ c && c ≤ '9'

def isLetter (c : Char) : Bool :=
  ('A' ≤ c && c ≤ 'Z') || ('a' ≤ c && c ≤ 'z') || c == '_'

def isNameChar (c : Char) : Bool :=
  isLetter c || isDigit c

/-- The token that a single character spells. -/
def symbol? : Char → Option TokenKind
  | '+' => some .plus
  | '-' => some .minus
  | '*' => some .star
  | '/' => some .slash
  | '^' => some .caret
  | '=' => some .equals
  | '(' => some .leftParen
  | ')' => some .rightParen
  | _ => none

/-- The kind of a name: one name is a keyword. -/
def nameKind (text : List Char) : TokenKind :=
  if text = ['l', 'e', 't'] then .letWord else .identifier

/-- A kind with its spelling, and what follows. -/
structure Lexeme where
  kind : TokenKind
  text : List Char
  rest : List Char
  deriving DecidableEq, Repr

/-- The longest lexeme at the front of a text. -/
def lexeme? : List Char → Option Lexeme
  | [] => none
  | c :: tail =>
    if isDigit c then
      let digits := c :: tail.takeWhile isDigit
      match tail.dropWhile isDigit with
      | '.' :: fraction =>
        some ⟨.real, digits ++ '.' :: fraction.takeWhile isDigit, fraction.dropWhile isDigit⟩
      | rest => some ⟨.integer, digits, rest⟩
    else if isLetter c then
      let text := c :: tail.takeWhile isNameChar
      some ⟨nameKind text, text, tail.dropWhile isNameChar⟩
    else
      (symbol? c).map fun kind => ⟨kind, [c], tail⟩

def digitsValue (digits : List Char) : Nat :=
  digits.foldl (fun value c => 10 * value + (c.toNat - '0'.toNat)) 0

/-- The largest magnitude of an integer literal. The literal itself is allowed only
after a minus sign, where it is the magnitude of the smallest 32-bit integer. -/
def largestMagnitude : Nat := 0x80000000

/-- Whether a run of digits spells an allowed magnitude. Zeros at the front do not count, and
a run that is too long is refused without its value. -/
def fitsMagnitude (digits : List Char) : Bool :=
  let significant := digits.dropWhile (· == '0')
  significant.length ≤ 10 && digitsValue significant ≤ largestMagnitude

/-- Why a statement has no tokens, with the column of the fault. -/
inductive ScanError where
  | unexpectedCharacter (c : Char) (column : Nat)
  | integerTooLarge (digits : List Char) (column : Nat)
  deriving DecidableEq, Repr

namespace ScanError

def column : ScanError → Nat
  | unexpectedCharacter _ column => column
  | integerTooLarge _ column => column

/-- A spelling as it is shown in a message: a long one is cut. -/
def shown (digits : List Char) : String :=
  if digits.length ≤ 20 then String.ofList digits else String.ofList (digits.take 17) ++ "..."

def message (error : ScanError) : String :=
  let fault :=
    match error with
    | unexpectedCharacter c _ => "Unexpected character: " ++ Text.quoted (String.singleton c)
    | integerTooLarge digits _ => "Integer literal out of range: " ++ shown digits
  "[LexerError] Col " ++ toString error.column ++ ": " ++ fault

end ScanError

/-- A lexeme is not empty. -/
theorem rest_length_lt {s : List Char} {lexeme : Lexeme} (found : lexeme? s = some lexeme) :
    lexeme.rest.length < s.length := by
  cases s with
  | nil => simp [lexeme?] at found
  | cons c tail =>
    have dropped (p : Char → Bool) (l : List Char) : (l.dropWhile p).length ≤ l.length :=
      (List.dropWhile_suffix p).length_le
    simp only [lexeme?] at found
    split at found
    · split at found
      · next fraction point =>
        have whole := dropped isDigit tail
        rw [point, List.length_cons] at whole
        have part := dropped isDigit fraction
        cases found
        simp only [List.length_cons]
        omega
      · cases found
        have whole := dropped isDigit tail
        simp only [List.length_cons]
        omega
    · split at found
      · cases found
        have whole := dropped isNameChar tail
        simp only [List.length_cons]
        omega
      · obtain ⟨kind, _, rfl⟩ := Option.map_eq_some_iff.mp found
        simp

/-- The tokens of a text whose first character stands in the given column. -/
def scanFrom (column : Nat) (s : List Char) : Except ScanError (List Token) :=
  match s with
  | [] => .ok []
  | c :: tail =>
    if Text.isBlank c then scanFrom (column + 1) tail
    else
      match found : lexeme? (c :: tail) with
      | none => .error (.unexpectedCharacter c column)
      | some lexeme =>
        -- A real of any size is a token; the size matters when it is rounded.
        if lexeme.kind = .integer ∧ fitsMagnitude lexeme.text = false then
          .error (.integerTooLarge lexeme.text column)
        else
          have : lexeme.rest.length < (c :: tail).length := rest_length_lt found
          match scanFrom (column + lexeme.text.length) lexeme.rest with
          | .error error => .error error
          | .ok tokens =>
            .ok (⟨lexeme.kind, String.ofList lexeme.text, column⟩ :: tokens)
termination_by s.length
decreasing_by
  · exact Nat.lt_succ_self _
  · assumption

def scan (source : String) : Except ScanError (List Token) :=
  scanFrom 1 source.toList

end Calculator.Token
