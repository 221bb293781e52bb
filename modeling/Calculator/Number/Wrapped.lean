/-!
# Integers of 32 bits

Integers are kept in the range of a 32-bit two's complement word. Wrapping takes the
one number of that range that differs by a multiple of 2^32.
-/

namespace Calculator

/-- The number of 32-bit words. -/
def wordCount : Nat := 0x100000000

def largestInteger : Int := 0x7fffffff

def smallestInteger : Int := -0x80000000

/-- The integer of 32 bits that differs by a multiple of 2^32. -/
def wrap (n : Int) : Int :=
  n.bmod wordCount

/-- A power modulo a number, by squaring. -/
def powerModulo (modulus base : Int) (exponent : Nat) : Int :=
  if exponent = 0 then 1 % modulus
  else
    let half := powerModulo modulus base (exponent / 2)
    let square := half * half % modulus
    if exponent % 2 = 0 then square else square * base % modulus
termination_by exponent
decreasing_by omega

/-- Wrapping stays within the range of 32 bits. -/
theorem wrap_range (n : Int) : smallestInteger ≤ wrap n ∧ wrap n ≤ largestInteger := by
  have lower := Int.le_bmod (x := n) (m := wordCount) (by decide)
  have upper := Int.bmod_lt (x := n) (m := wordCount) (by decide)
  simp only [wrap, smallestInteger, largestInteger, wordCount] at *
  omega

end Calculator
