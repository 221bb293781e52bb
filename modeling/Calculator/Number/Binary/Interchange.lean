import Calculator.Number.Binary

/-!
# Interchange encodings

The bits of a datum are its sign, then the exponent and the fraction, which together
count the numbers of the format from zero upwards. Infinity follows the largest number,
and the bits beyond it stand for no number.
-/

namespace Calculator.Format

/-- The number of fractions that share an exponent. -/
def fractions (format : Format) : Nat :=
  1 <<< (format.precision - 1)

/-- The position of infinity in the count of magnitudes. -/
def infinityCount (format : Format) : Nat :=
  (format.greatestExponent - format.leastExponent + 2).toNat * format.fractions

def signWeight (format : Format) : Nat :=
  format.infinityCount + format.fractions

/-- The position of a positive number of the format in the count of magnitudes. -/
def magnitudeCount (format : Format) (q : Rat) : Nat :=
  let exponent := format.lastExponent q
  (exponent - format.leastExponent).toNat * format.fractions
    + (q.abs / (2 : Rat) ^ exponent).floor.toNat

/-- The bits of a datum of the format. -/
def toBits (format : Format) (x : Binary) : Nat :=
  let sign := if x.isNegative then format.signWeight else 0
  match x with
  | .number value => if value = 0 then 0 else sign + format.magnitudeCount value
  | .negativeZero => sign
  | .infinity _ => sign + format.infinityCount
  | .nan => format.infinityCount + format.fractions / 2

/-- The number at a position in the count of magnitudes. -/
def ofMagnitudeCount (format : Format) (count : Nat) : Rat :=
  let fraction := count % format.fractions
  match count / format.fractions with
  | 0 => (fraction : Rat) * (2 : Rat) ^ format.leastExponent
  | exponent + 1 =>
    ((format.fractions + fraction : Nat) : Rat) * (2 : Rat) ^ (format.leastExponent + exponent)

def ofBits (format : Format) (bits : Nat) : Binary :=
  let negative := format.signWeight ≤ bits
  let count := bits % format.signWeight
  if format.infinityCount < count then .nan
  else if count = format.infinityCount then .infinity negative
  else if count = 0 then .zero negative
  else if negative then .number (-format.ofMagnitudeCount count)
  else .number (format.ofMagnitudeCount count)

end Calculator.Format
