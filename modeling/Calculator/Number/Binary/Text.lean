import Calculator.Number.Decimal.Layout

/-!
# Text of floating-point data

A double-format number is written with the fewest digits that read back as it. A
single-format number is written with the first number of significant digits, from one to
nine, at which rounding it gives a decimal that reads back as it through the double
format.
-/

namespace Calculator.Binary

/-- The text of a datum, given the word for infinity and the text of magnitudes. -/
def write (infinityWord : String) (magnitude : Rat → List Char) (x : Binary) : String :=
  let sign := if x.isNegative then "-" else ""
  match x with
  | nan => "NaN"
  | infinity _ => sign ++ infinityWord
  | negativeZero => sign ++ String.ofList (magnitude 0)
  | number q => sign ++ String.ofList (magnitude q.abs)

def doubleMagnitude (q : Rat) : List Char :=
  Layout.real.write (Format.shortestDouble q)

/-- Reads a decimal in the double format and rounds it to the single format. -/
def readSingle (d : Decimal) : Binary :=
  Format.single.round (Format.double.ofRat d.toRat)

/-- The numbers of significant digits that are tried for a single-format number. -/
def singleDigits : List Nat := [1, 2, 3, 4, 5, 6, 7, 8, 9]

/-- The first rounding of a positive single-format number that reads back as it. -/
def singleDecimal? (q : Rat) : Option Decimal :=
  (singleDigits.map fun digits => Decimal.nearest digits q).find? fun d =>
    readSingle d = number q

/-- The text of a nonnegative single-format number. The digits found are written as the
double-format number that they read as. -/
def singleMagnitude (q : Rat) : List Char :=
  if q = 0 then doubleMagnitude 0
  else
    match (singleDecimal? q).map fun d => Format.double.ofRat d.toRat with
    | some (number r) => doubleMagnitude r
    | _ => doubleMagnitude q

def singleText (x : Binary) : String :=
  x.write "inf" singleMagnitude

/-- The text of a double-format datum inside a tree. -/
def doubleText (x : Binary) : String :=
  x.write "Infinity" doubleMagnitude

end Calculator.Binary
