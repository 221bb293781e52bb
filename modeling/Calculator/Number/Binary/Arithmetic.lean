import Calculator.Number.Binary.Interchange

/-!
# Floating-point arithmetic

Each operation gives the exact result rounded once to the format. The exceptional data
follow one rule each: what has no value is not a number, and a nonzero datum divided by
zero is an infinity with the sign of the quotient. Raising to a power is the machine's.
-/

namespace Calculator.Format

/-- The sum in a format. Opposite infinities have none. -/
def add (format : Format) : Binary → Binary → Binary
  | .nan, _ | _, .nan => .nan
  | .infinity a, .infinity b => if a = b then .infinity a else .nan
  | .infinity a, _ | _, .infinity a => .infinity a
  | .negativeZero, .negativeZero => .negativeZero
  | .negativeZero, .number b => format.ofRat b
  | .number a, .negativeZero => format.ofRat a
  | .number a, .number b => format.ofRat (a + b)

def sub (format : Format) (a b : Binary) : Binary :=
  format.add a b.negate

/-- The product in a format. Zero times infinity has none. -/
def mul (format : Format) (a b : Binary) : Binary :=
  let negative := a.isNegative != b.isNegative
  match a, b with
  | .nan, _ | _, .nan => .nan
  | .infinity _, .infinity _ => .infinity negative
  | .infinity _, .negativeZero | .negativeZero, .infinity _ => .nan
  | .infinity _, .number q | .number q, .infinity _ =>
    if q = 0 then .nan else .infinity negative
  | .negativeZero, _ | _, .negativeZero => .zero negative
  | .number a, .number b =>
    if a = 0 ∨ b = 0 then .zero negative else format.ofRat (a * b)

/-- The quotient in a format. Zero by zero and infinity by infinity have none. -/
def div (format : Format) (a b : Binary) : Binary :=
  let negative := a.isNegative != b.isNegative
  match a, b with
  | .nan, _ | _, .nan => .nan
  | .infinity _, .infinity _ => .nan
  | .infinity _, _ => .infinity negative
  | _, .infinity _ => .zero negative
  | .negativeZero, .negativeZero => .nan
  | .number a, .negativeZero => if a = 0 then .nan else .infinity negative
  | .negativeZero, .number b => if b = 0 then .nan else .zero negative
  | .number a, .number b =>
    if b = 0 then (if a = 0 then .nan else .infinity negative)
    else if a = 0 then .zero negative
    else format.ofRat (a / b)

/-- The machine's number with the same bits as a double-format datum. -/
def toMachine (x : Binary) : Float :=
  Float.ofBits (double.toBits x).toUInt64

def ofMachine (x : Float) : Binary :=
  double.ofBits x.toBits.toNat

/-- A power in the double format, as the machine computes it. -/
def machinePower (base exponent : Binary) : Binary :=
  ofMachine (toMachine base ^ toMachine exponent)

end Calculator.Format
