import Calculator.Operator
import Calculator.Text.Quoted

/-!
# Tokens

The words of a statement. A token keeps its spelling and the column where it begins;
columns count characters from one.
-/

namespace Calculator

inductive TokenKind where
  | integer
  | real
  | identifier
  | letWord
  | plus
  | minus
  | star
  | slash
  | caret
  | equals
  | leftParen
  | rightParen
  deriving DecidableEq, Repr

namespace TokenKind

def name : TokenKind → String
  | integer => "INTEGER"
  | real => "FLOAT"
  | identifier => "IDENTIFIER"
  | letWord => "LET"
  | plus => "PLUS"
  | minus => "MINUS"
  | star => "STAR"
  | slash => "SLASH"
  | caret => "CARET"
  | equals => "ASSIGN"
  | leftParen => "LPAREN"
  | rightParen => "RPAREN"

def all : List TokenKind :=
  [integer, real, identifier, letWord, plus, minus, star, slash, caret, equals,
   leftParen, rightParen]

def ofName? (name : String) : Option TokenKind :=
  all.find? fun kind => kind.name == name

/-- The operator that a token stands for between two operands. -/
def binaryOperator? : TokenKind → Option Operator
  | plus => some .plus
  | minus => some .minus
  | star => some .multiply
  | slash => some .divide
  | caret => some .power
  | equals => some .assign
  | _ => none

theorem mem_all (kind : TokenKind) : kind ∈ all := by
  cases kind <;> simp [all]

end TokenKind

structure Token where
  kind : TokenKind
  text : String
  column : Int
  deriving DecidableEq, Repr

def Token.description (token : Token) : String :=
  "Token(" ++ token.kind.name ++ ", " ++ Text.quoted token.text ++ ", column="
    ++ toString token.column ++ ")"

end Calculator
