import Calculator.Number.Binary
import Calculator.Token.Scan

/-!
# Decimal numbers

A decimal is a coefficient times a power of ten. Numerals are read as decimals exactly;
a rational is rounded to a number of significant digits, or written with the fewest
digits that read back as the same datum of a format.
-/

namespace Calculator

/-- The number `coefficient * 10 ^ exponent`. -/
structure Decimal where
  coefficient : Nat
  exponent : Int
  deriving DecidableEq, Repr

namespace Decimal

def toRat (d : Decimal) : Rat :=
  (d.coefficient : Rat) * (10 : Rat) ^ d.exponent

/-! ### Reading -/

def readSign : List Char → Bool × List Char
  | '-' :: rest => (true, rest)
  | '+' :: rest => (false, rest)
  | s => (false, s)

/-- The exponent that ends a numeral, if the numeral ends properly. -/
def readExponent : List Char → Option Int
  | [] => some 0
  | mark :: rest =>
    let (negative, digits) := readSign rest
    if (mark = 'e' ∨ mark = 'E') ∧ digits ≠ [] ∧ digits.all Token.isDigit then
      let size : Int := Token.digitsValue digits
      some (if negative then -size else size)
    else none

/-- Splits a fraction with its point from what follows. -/
def readFraction : List Char → List Char × List Char
  | '.' :: rest => (rest.takeWhile Token.isDigit, rest.dropWhile Token.isDigit)
  | s => ([], s)

/-- The sign and the value of a numeral: digits with an optional point among or beside
them, and an optional power of ten. -/
def read? (numeral : List Char) : Option (Bool × Decimal) :=
  let (negative, unsigned) := readSign numeral
  let whole := unsigned.takeWhile Token.isDigit
  let (fraction, rest) := readFraction (unsigned.dropWhile Token.isDigit)
  if whole ++ fraction = [] then none
  else
    (readExponent rest).map fun exponent =>
      (negative, ⟨Token.digitsValue (whole ++ fraction), exponent - fraction.length⟩)

/-! ### Rounding to significant digits -/

/-- The exponent of the last of a number of significant digits. -/
def lastExponent (digits : Nat) (q : Rat) : Int :=
  order 10 q - (digits - 1 : Nat)

/-- The nearest decimal to a positive rational with a number of significant digits; of
two that are equally near, the one with an even last digit. -/
def nearest (digits : Nat) (q : Rat) : Decimal :=
  let exponent := lastExponent digits q
  ⟨(roundHalfEven (q / (10 : Rat) ^ exponent)).toNat, exponent⟩

/-- The two neighbours of a positive rational with a number of significant digits, the
nearest one first. -/
def neighbours (digits : Nat) (q : Rat) : List Decimal :=
  let exponent := lastExponent digits q
  let below := (q / (10 : Rat) ^ exponent).floor.toNat
  [nearest digits q, ⟨below, exponent⟩, ⟨below + 1, exponent⟩]

/-- The first decimal that reads back, trying more and more digits. The last attempt
rounds to the nearest decimal without a test. -/
def shortestFrom (readsBack : Rat → Bool) (q : Rat) (digits : Nat) : Nat → Decimal
  | 0 => nearest digits q
  | attempts + 1 =>
    match (neighbours digits q).find? fun d => readsBack d.toRat with
    | some d => d
    | none => shortestFrom readsBack q (digits + 1) attempts

end Decimal

namespace Format

/-- A decimal of at least this exponent of two is above all numbers of the format. -/
def overflowExponent (format : Format) : Int :=
  format.greatestExponent + format.precision

/-- Rounds a signed decimal to the format. As a power of ten lies above the same power
of eight, a decimal far out of range is recognised without computing it. -/
def ofDecimal (format : Format) (negative : Bool) (d : Decimal) : Binary :=
  let size : Int := floorLog 2 d.coefficient + 3 * d.exponent
  if d.coefficient = 0 then .zero negative
  else if 0 ≤ d.exponent ∧ format.overflowExponent ≤ size then .infinity negative
  else if d.exponent < 0 ∧ size + 2 ≤ format.leastExponent then .zero negative
  else format.ofRat (if negative then -d.toRat else d.toRat)

/-- The number of decimal digits that tell all double-format numbers apart. -/
def doubleDigits : Nat := 17

/-- The decimal with the fewest digits that reads back as a positive number of the
double format; of those the nearest one. -/
def shortestDouble (q : Rat) : Decimal :=
  if q = 0 then ⟨0, 0⟩
  else Decimal.shortestFrom (fun r => double.ofRat r = .number q) q 1 (doubleDigits - 1)

end Format

end Calculator
