import Calculator.Number.Decimal

/-!
# Layout of decimals

A decimal is written with its point among the digits when its leading digit is not far
from the point, and otherwise with the point after the leading digit and a power of ten.
-/

namespace Calculator

/-- The powers of ten of the leading digits that are written without an exponent, and the
least number of digits of an exponent. -/
structure Layout where
  leastPositional : Int
  greatestPositional : Int
  exponentDigits : Nat
  deriving DecidableEq, Repr

namespace Layout

/-- Reals are positional from a ten-thousandth up to ten to the sixteenth, and an
exponent has two digits or more. -/
def real : Layout := ⟨-4, 15, 2⟩

/-- The digits of a coefficient without the zeros at its end. -/
def significantDigits (n : Nat) : List Char :=
  ((Nat.toDigits 10 n).reverse.dropWhile (· == '0')).reverse

def leadingExponent (d : Decimal) : Int :=
  d.exponent + (Nat.toDigits 10 d.coefficient).length - 1

/-- Digits with the point after the digit of the power zero; a digit follows the point. -/
def positional (leading : Int) (digits : List Char) : List Char :=
  if leading < 0 then
    '0' :: '.' :: List.replicate (-leading - 1).toNat '0' ++ digits
  else
    -- Zeros stand for the digits that are missing in front of the point.
    let width := leading.toNat + 1
    let fraction := digits.drop width
    (digits.take width).rightpad width '0' ++ '.' :: (if fraction = [] then ['0'] else fraction)

/-- Digits with the point after the first one, and the power of ten. -/
def scientific (exponentDigits : Nat) (leading : Int) (digits : List Char) : List Char :=
  let fraction := digits.drop 1
  let exponent := (Nat.toDigits 10 leading.natAbs).leftpad exponentDigits '0'
  digits.take 1 ++ (if fraction = [] then [] else '.' :: fraction)
    ++ 'e' :: (if leading < 0 then '-' else '+') :: exponent

def write (layout : Layout) (d : Decimal) : List Char :=
  let leading := leadingExponent d
  let digits := significantDigits d.coefficient
  if layout.leastPositional ≤ leading ∧ leading ≤ layout.greatestPositional then
    positional leading digits
  else scientific layout.exponentDigits leading digits

end Layout

end Calculator
