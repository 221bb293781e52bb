/-!
# Magnitude and rounding of rationals

The order of a rational in a base is the exponent of its leading digit there. Rounding
to an integer takes the nearest one, and of two that are equally near the even one;
rounding to the multiples of a power follows from it.
-/

namespace Calculator

/-- The largest `k` with `base ^ k ≤ n`, and zero when there is none. It is twice the
exponent for the squared base, or one more. -/
def floorLog (base n : Nat) : Nat :=
  if h : 2 ≤ base ∧ base ≤ n then
    have : n + 1 - base * base < n + 1 - base := by
      have : base * 2 ≤ base * base := Nat.mul_le_mul_left base h.1
      omega
    let half := floorLog (base * base) n
    if Nat.pow base (2 * half + 1) ≤ n then 2 * half + 1 else 2 * half
  else 0
termination_by n + 1 - base

/-- The largest integer `k` with `base ^ k ≤ |q|`, for a rational other than zero. The
orders of the numerator and of the denominator differ from it by at most one. -/
def order (base : Nat) (q : Rat) : Int :=
  let estimate : Int := floorLog base q.num.natAbs - floorLog base q.den
  if (base : Rat) ^ estimate ≤ q.abs then estimate else estimate - 1

/-- The integer nearest to a rational; of two that are equally near, the even one. -/
def roundHalfEven (q : Rat) : Int :=
  let below := q.floor
  let excess := q - below
  if excess < 1 / 2 then below
  else if 1 / 2 < excess then below + 1
  else if below % 2 = 0 then below
  else below + 1

/-- An integer is its own nearest one. -/
theorem roundHalfEven_intCast (n : Int) : roundHalfEven n = n := by
  have excess : (n : Rat) - (n : Rat) = 0 := Rat.sub_self
  have half : (0 : Rat) < 1 / 2 := by decide +kernel
  simp only [roundHalfEven, Rat.floor_intCast, excess, if_pos half]

end Calculator
