import Calculator.Number.Binary.Arithmetic

/-!
# Guarded quotients and powers

The machine refuses to divide by zero, and to raise a number to a power that is no number; sums,
differences and products it never refuses. A quotient therefore asks for the machine's only if the
divisor is not zero, and a power that the machine refuses is an infinity or no number, as the cause
of the refusal requires. With these guards no operation is refused: `quotient?_eq` and
`power?_ne_error`.
-/

namespace Calculator

/-- The causes for which the machine refuses an operation. -/
inductive MachineFault where
  | zeroDivisor
  | outOfRange
  | outOfDomain
  deriving DecidableEq, Repr

/-- The result of an operation that is never refused. -/
def resultOf {ε α : Type} (outcome : Except ε α) (accepted : ∀ fault, outcome ≠ .error fault) : α :=
  match outcome, accepted with
  | .ok result, _ => result
  | .error fault, accepted => absurd rfl (accepted fault)

theorem ok_resultOf {ε α : Type} (outcome : Except ε α)
    (accepted : ∀ fault, outcome ≠ .error fault) :
    .ok (resultOf outcome accepted) = outcome := by
  cases outcome with
  | ok result => rfl
  | error fault => exact absurd rfl (accepted fault)

namespace Binary

def isZero : Binary → Bool
  | number q => q = 0
  | negativeZero => true
  | infinity _ | nan => false

def isOddInteger : Binary → Bool
  | number q => q.isInt && q.num % 2 == 1
  | negativeZero | infinity _ | nan => false

/-! ### The machine's operations -/

/-- The machine's quotient, refused if the divisor is zero. -/
def machineQuotient? (a b : Binary) : Except MachineFault Binary :=
  if b.isZero then .error .zeroDivisor else .ok (Format.double.div a b)

/-- The machine's power. Of two numbers it is refused unless it is a number: zero has no negative
power and a negative number no fractional one; any other power is too large. -/
def machinePower? (base exponent : Binary) : Except MachineFault Binary :=
  let power := Format.machinePower base exponent
  if base.IsFinite ∧ exponent.IsFinite then
    match power with
    | .nan => .error .outOfDomain
    | .infinity _ => .error (if base.isZero then .outOfDomain else .outOfRange)
    | power => .ok power
  else .ok power

/-! ### The guards -/

/-- The quotient. By zero it is an infinity, whose sign follows both operands, unless the dividend
is zero or no number. -/
def quotient? (a b : Binary) : Except MachineFault Binary :=
  if !b.isZero then machineQuotient? a b
  else if a.isZero ∨ a = .nan then .ok .nan
  else .ok (.infinity (a.isNegative != b.isNegative))

/-- The power. One that is too large is an infinity, and so is a negative power of zero; both have
the sign of the base if the exponent is odd. -/
def power? (base exponent : Binary) : Except MachineFault Binary :=
  match machinePower? base exponent with
  | .error .outOfRange =>
    .ok (.infinity (!base.isZero && base.isNegative && exponent.isOddInteger))
  | .error .outOfDomain =>
    .ok (if base.isZero then .infinity (exponent.isOddInteger && base.isNegative) else .nan)
  | outcome => outcome

/-- The guards of a quotient give what the format gives. -/
theorem quotient?_eq (a b : Binary) : quotient? a b = .ok (Format.double.div a b) := by
  by_cases zero : b.isZero = true
  · -- The format answers for a zero divisor, too, and the guard answers alike.
    cases b with
    | infinity | nan => cases zero
    | negativeZero => cases a <;> simp [quotient?, isZero, Format.div, apply_ite Except.ok]
    | number r =>
      obtain rfl : r = 0 := by simpa [isZero] using zero
      cases a <;> simp [quotient?, isZero, Format.div, apply_ite Except.ok]
  · simp [quotient?, machineQuotient?, zero]

theorem quotient?_ne_error (a b : Binary) (fault : MachineFault) :
    quotient? a b ≠ .error fault := by
  rw [quotient?_eq]
  exact nofun

/-- A machine's power is not refused for a zero divisor. -/
private theorem machinePower?_ne_zeroDivisor (base exponent : Binary) :
    machinePower? base exponent ≠ .error .zeroDivisor := by
  simp only [machinePower?]
  split
  · split
    · exact nofun
    · split <;> exact nofun
    · exact nofun
  · exact nofun

/-- Both causes for which a power is refused have a value. -/
theorem power?_ne_error (base exponent : Binary) (fault : MachineFault) :
    power? base exponent ≠ .error fault := by
  rw [power?]
  -- Both causes of a power are caught; a zero divisor is none of them.
  split
  · exact nofun
  · exact nofun
  · next inRange inDomain =>
    intro refused
    cases fault with
    | zeroDivisor => exact machinePower?_ne_zeroDivisor base exponent refused
    | outOfRange => exact inRange refused
    | outOfDomain => exact inDomain refused

def quotient (a b : Binary) : Binary :=
  resultOf (quotient? a b) (quotient?_ne_error a b)

def power (base exponent : Binary) : Binary :=
  resultOf (power? base exponent) (power?_ne_error base exponent)

@[simp]
theorem quotient_eq (a b : Binary) : quotient a b = Format.double.div a b := by
  have same := (ok_resultOf (quotient? a b) (quotient?_ne_error a b)).trans (quotient?_eq a b)
  exact Except.ok.inj same

end Binary

end Calculator
