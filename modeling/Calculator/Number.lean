import Calculator.Number.Binary.Text
import Calculator.Number.Wrapped

/-!
# Numbers and values

A number is an integer or a real. Numbers made by a calculation keep to 32 bits: an
integer is wrapped and a real is rounded to the single format. A statement has a number
as its value, or the unit when it assigns.
-/

namespace Calculator

inductive NumberKind where
  | integer
  | real
  deriving DecidableEq, Repr

def NumberKind.name : NumberKind → String
  | integer => "INTEGER"
  | real => "FLOAT"

inductive Number where
  | integer (value : Int)
  | real (value : Binary)
  deriving DecidableEq, Repr

def integerText (n : Int) : String :=
  String.ofList ((if n < 0 then ['-'] else []) ++ Nat.toDigits 10 n.natAbs)

namespace Number

def kind : Number → NumberKind
  | integer _ => .integer
  | real _ => .real

/-- An integer of 32 bits. -/
def ofInt (n : Int) : Number :=
  integer (wrap n)

/-- A real of the single format. -/
def ofBinary (x : Binary) : Number :=
  real (Format.single.round x)

/-- Numbers of 32 bits: what a calculation makes. -/
def Fits : Number → Prop
  | integer n => smallestInteger ≤ n ∧ n ≤ largestInteger
  | real x => Format.single.round x = x

def text : Number → String
  | integer n => integerText n
  | real x => x.singleText

end Number

/-- What a statement evaluates to. -/
inductive Value where
  | number (n : Number)
  | unit
  deriving DecidableEq, Repr

namespace Value

/-- The text of a value; the unit has none. -/
def text : Value → String
  | number n => n.text
  | unit => ""

def kindName : Value → String
  | number (.integer _) => "Integer"
  | number (.real _) => "Float"
  | unit => "Unit"

end Value

end Calculator
