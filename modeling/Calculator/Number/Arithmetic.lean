import Calculator.Evaluation.Fault
import Calculator.Number
import Calculator.Number.Binary.Guarded

/-!
# Arithmetic of numbers

Two numbers are brought to one kind before they are combined: an integer beside a real
becomes the nearest real, if it is within the range of the double format. Integers wrap and
divide toward zero; reals are combined in the double format and rounded to the single one. An
integer to the power of a negative integer is a real.
-/

namespace Calculator

/-- Two numbers of one kind. -/
inductive Promoted where
  | integers (left right : Int)
  | reals (left right : Binary)
  deriving DecidableEq, Repr

def Promoted.kind : Promoted → NumberKind
  | integers .. => .integer
  | reals .. => .real

namespace Number

/-- The real nearest to an integer. An integer beyond the double format has none. -/
def realOfInt (n : Int) : Except Fault Binary :=
  match Format.double.ofRat n with
  | .infinity _ => .error .integerTooLarge
  | x => .ok (Format.single.round x)

/-- Brings two numbers to one kind. -/
def promote : Number → Number → Except Fault Promoted
  | integer a, integer b => .ok (.integers a b)
  | real a, real b => .ok (.reals a b)
  | integer a, real b =>
    match realOfInt a with
    | .ok x => .ok (.reals x (Format.single.round b))
    | .error fault => .error fault
  | real a, integer b =>
    match realOfInt b with
    | .ok y => .ok (.reals (Format.single.round a) y)
    | .error fault => .error fault

def negate : Number → Number
  | integer n => ofInt (-n)
  | real x => ofBinary x.negate

def realPower (base exponent : Binary) : Number :=
  ofBinary (base.power exponent)

def power : Promoted → Except Fault Number
  | .integers base exponent =>
    if 0 ≤ exponent then .ok (ofInt (powerModulo wordCount base exponent.toNat))
    else
      match realOfInt base, realOfInt exponent with
      | .ok x, .ok y => .ok (realPower x y)
      | .error fault, _ | _, .error fault => .error fault
  | .reals base exponent => .ok (realPower base exponent)

/-- The quotient of two integers: that of their sizes, negative if just one of them is. -/
def quotient (a b : Int) : Int :=
  let size : Int := (a.natAbs / b.natAbs : Nat)
  if decide (a < 0) != decide (b < 0) then -size else size

def combineIntegers (op : Operator) (a b : Int) : Except Fault Number :=
  match op with
  | .plus => .ok (ofInt (a + b))
  | .minus => .ok (ofInt (a - b))
  | .multiply => .ok (ofInt (a * b))
  | .divide => if b = 0 then .error .divisionByZero else .ok (ofInt (quotient a b))
  | .power => power (.integers a b)
  | op => .error (.misplaced op .binary)

def combineReals (op : Operator) (a b : Binary) : Except Fault Number :=
  match op with
  | .plus => .ok (ofBinary (Format.double.add a b))
  | .minus => .ok (ofBinary (Format.double.sub a b))
  | .multiply => .ok (ofBinary (Format.double.mul a b))
  | .divide => .ok (ofBinary (a.quotient b))
  | .power => power (.reals a b)
  | op => .error (.misplaced op .binary)

/-- Combines two numbers by a binary operator. -/
def apply (op : Operator) (left right : Number) : Except Fault Number :=
  match promote left right with
  | .error fault => .error fault
  | .ok (.integers a b) => combineIntegers op a b
  | .ok (.reals a b) => combineReals op a b

end Number

end Calculator
