import Calculator.Number.Magnitude

/-!
# Binary floating-point data

A datum is a rational number, negative zero, an infinity, or no number at all. A format
bounds the digits and the exponent of the rationals that it holds; rounding to a format
takes the nearest of them, ties going to an even last digit, as if the exponent had no
upper bound, and a result above the largest number of the format is an infinity.

A number of the single format is also one of the double format, and both are the same
rational, so that widening needs no operation.
-/

namespace Calculator

/-- A floating-point datum. The rational zero stands for positive zero. -/
inductive Binary where
  | number (value : Rat)
  | negativeZero
  | infinity (negative : Bool)
  | nan
  deriving DecidableEq, Repr

namespace Binary

def zero (negative : Bool) : Binary :=
  if negative then negativeZero else number 0

def IsFinite : Binary → Prop
  | number _ | negativeZero => True
  | infinity _ | nan => False

instance : DecidablePred IsFinite
  | number _ | negativeZero => .isTrue trivial
  | infinity _ | nan => .isFalse id

/-- The sign bit of a datum. -/
def isNegative : Binary → Bool
  | number value => value < 0
  | negativeZero => true
  | infinity negative => negative
  | nan => false

def negate : Binary → Binary
  | number value => if value = 0 then negativeZero else number (-value)
  | negativeZero => number 0
  | infinity negative => infinity !negative
  | nan => nan

end Binary

/-- A binary format: the number of significant digits, and the exponents of the last
digit of its smallest and of its largest numbers. -/
structure Format where
  precision : Nat
  leastExponent : Int
  greatestExponent : Int
  deriving DecidableEq, Repr

namespace Format

/-- Numbers of 32 bits. -/
def single : Format := ⟨24, -149, 104⟩

/-- Numbers of 64 bits. -/
def double : Format := ⟨53, -1074, 971⟩

/-- The exponent of the last digit that the format keeps of a rational. -/
def lastExponent (format : Format) (q : Rat) : Int :=
  max format.leastExponent (order 2 q - (format.precision - 1 : Nat))

/-- The nearest multiple of the last digit that the format keeps of a rational. -/
def nearest (format : Format) (q : Rat) : Rat :=
  let unit := (2 : Rat) ^ format.lastExponent q
  roundHalfEven (q / unit) * unit

def largest (format : Format) : Rat :=
  ((2 : Rat) ^ format.precision - 1) * (2 : Rat) ^ format.greatestExponent

/-- Rounds a rational to the format. A negative rational that vanishes leaves its sign. -/
def ofRat (format : Format) (q : Rat) : Binary :=
  let rounded := format.nearest q
  if format.largest < rounded.abs then .infinity (q < 0)
  else if rounded = 0 then .zero (q < 0)
  else .number rounded

def round (format : Format) : Binary → Binary
  | .number value => format.ofRat value
  | other => other

end Format

end Calculator
