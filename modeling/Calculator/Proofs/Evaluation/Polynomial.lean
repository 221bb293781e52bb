import Calculator.Proofs.Evaluation.Mention
import Calculator.Proofs.Evaluation.Width
import Mathlib.Data.Int.ModEq
import Mathlib.Tactic.Ring

/-!
# Polynomials of integers

Wrapping keeps the residue of an integer modulo 2^32, and signs, sums, differences, products and
powers depend on the residues of their operands only. So it does not matter for a tree of these
operations whether every step wraps or the exact number is wrapped once. A name alone is no step:
its number is the one that the environment has.

## Main result

`polynomials_wrap_once`: the number of a polynomial is the one integer of 32 bits with the residue
of the exact number.
-/

namespace Calculator

/-! ### Residues -/

theorem wrap_modEq (n : Int) : wrap n ≡ n [ZMOD wordCount] :=
  Int.bmod_emod

/-- The residue determines an integer of 32 bits. -/
private theorem eq_of_modEq {m n : Int} (fitsLeft : (Number.integer m).Fits)
    (fitsRight : (Number.integer n).Fits) (congruent : m ≡ n [ZMOD wordCount]) : m = n := by
  obtain ⟨lowerLeft, upperLeft⟩ := fitsLeft
  obtain ⟨lowerRight, upperRight⟩ := fitsRight
  calc m = wrap m := (wrap_of_range lowerLeft upperLeft).symm
    _ = wrap n := by rw [wrap, ← Int.emod_bmod m, congruent, Int.emod_bmod, wrap]
    _ = n := wrap_of_range lowerRight upperRight

/-- Squaring and reducing at every step gives the residue of the power. -/
theorem powerModulo_modEq (modulus base : Int) (exponent : Nat) :
    powerModulo modulus base exponent ≡ base ^ exponent [ZMOD modulus] := by
  fun_induction powerModulo modulus base exponent with
  | case1 =>
    rw [pow_zero]
    exact Int.mod_modEq 1 modulus
  | case2 exponent _ half square even ih =>
    have halves : exponent = exponent / 2 + exponent / 2 := by omega
    calc square ≡ half * half [ZMOD modulus] := Int.mod_modEq _ _
      _ ≡ base ^ (exponent / 2) * base ^ (exponent / 2) [ZMOD modulus] := ih.mul ih
      _ = base ^ exponent := by rw [← pow_add, ← halves]
  | case3 exponent _ half square odd ih =>
    have halves : exponent = exponent / 2 + exponent / 2 + 1 := by omega
    have squared : square ≡ half * half [ZMOD modulus] := Int.mod_modEq _ _
    calc square * base % modulus ≡ square * base [ZMOD modulus] := Int.mod_modEq _ _
      _ ≡ base ^ (exponent / 2) * base ^ (exponent / 2) * base [ZMOD modulus] :=
        (squared.trans (ih.mul ih)).mul_right base
      _ = base ^ exponent := by rw [← pow_add, ← pow_succ, ← halves]

namespace Expr

/-! ### Exact numbers -/

/-- The tree is a polynomial of names with integer coefficients. The exponent of a power is a
literal of 32 bits that is not negative; a coefficient may be any integer. -/
inductive IsPolynomial : Expr → Prop
  | name (x : String) : IsPolynomial (identifier x)
  | coefficient (n : Int) : IsPolynomial (integer n)
  | negation {e : Expr} (inner : IsPolynomial e) : IsPolynomial (unary .negate e)
  | sum {l r : Expr} (left : IsPolynomial l) (right : IsPolynomial r) :
      IsPolynomial (binary .plus l r)
  | difference {l r : Expr} (left : IsPolynomial l) (right : IsPolynomial r) :
      IsPolynomial (binary .minus l r)
  | product {l r : Expr} (left : IsPolynomial l) (right : IsPolynomial r) :
      IsPolynomial (binary .multiply l r)
  | power {base : Expr} {k : Int} (raised : IsPolynomial base) (lower : 0 ≤ k)
      (upper : k ≤ largestInteger) : IsPolynomial (binary .power base (integer k))

/-- The number of a polynomial over the integers, without a bound on their size. Other trees
have none, and zero stands for it. -/
def exact (values : String → Int) : Expr → Int
  | identifier x => values x
  | integer n => n
  | unary .negate operand => -operand.exact values
  | binary .plus left right => left.exact values + right.exact values
  | binary .minus left right => left.exact values - right.exact values
  | binary .multiply left right => left.exact values * right.exact values
  | binary .power base (integer k) => base.exact values ^ k.toNat
  | _ => 0

variable {env : Environment} {values : String → Int} {e l r : Expr}

/-! ### Steps -/

private theorem evaluate_integers {op : Operator} {a b : Int} (arithmetic : op.isArithmetic = true)
    (left : l.evaluate env = .ok (.integer a)) (right : r.evaluate env = .ok (.integer b)) :
    (binary op l r).evaluate env = Number.combineIntegers op a b := by
  rw [evaluate_binary arithmetic left right]
  rfl

/-- The exponent is a literal, so that it is wrapped first; it is small enough to stay as it is. -/
theorem evaluate_power {a k : Int} (base : e.evaluate env = .ok (.integer a)) (lower : 0 ≤ k)
    (upper : k ≤ largestInteger) :
    (binary .power e (integer k)).evaluate env
      = .ok (.ofInt (powerModulo wordCount a k.toNat)) := by
  have exponent : (integer k).evaluate env = .ok (.integer k) := by
    have small : smallestInteger ≤ k := Int.le_trans (by decide) lower
    rw [evaluate, Number.ofInt, wrap_of_range small upper]
  rw [evaluate_integers rfl base exponent]
  simp only [Number.combineIntegers, Number.power, if_pos lower]

def HasResidue (env : Environment) (e : Expr) (m : Int) : Prop :=
  ∃ n, e.evaluate env = .ok (.integer n) ∧ n ≡ m [ZMOD wordCount]

/-- An operation that respects residues and wraps its result makes the residue of the exact
result from the residues of the operands. -/
theorem HasResidue.binary {op : Operator} {f : Int → Int → Int} {m k : Int}
    (arithmetic : op.isArithmetic = true)
    (wraps : ∀ a b, Number.combineIntegers op a b = .ok (.ofInt (f a b)))
    (respects : ∀ {a b c d : Int}, a ≡ b [ZMOD wordCount] → c ≡ d [ZMOD wordCount] →
      f a c ≡ f b d [ZMOD wordCount])
    (left : HasResidue env l m) (right : HasResidue env r k) :
    HasResidue env (.binary op l r) (f m k) := by
  obtain ⟨a, leftNumber, leftResidue⟩ := left
  obtain ⟨b, rightNumber, rightResidue⟩ := right
  refine ⟨wrap (f a b), ?_, (wrap_modEq _).trans (respects leftResidue rightResidue)⟩
  rw [evaluate_integers arithmetic leftNumber rightNumber, wraps, Number.ofInt]

theorem HasResidue.negation {m : Int} (inner : HasResidue env e m) :
    HasResidue env (.unary .negate e) (-m) := by
  obtain ⟨a, number, residue⟩ := inner
  refine ⟨wrap (-a), ?_, (wrap_modEq _).trans residue.neg⟩
  simp only [evaluate, if_true, number, Number.negate, Number.ofInt]

theorem HasResidue.power {m k : Int} (raised : HasResidue env e m) (lower : 0 ≤ k)
    (upper : k ≤ largestInteger) :
    HasResidue env (.binary .power e (.integer k)) (m ^ k.toNat) := by
  obtain ⟨a, number, residue⟩ := raised
  refine ⟨wrap (powerModulo wordCount a k.toNat), evaluate_power number lower upper, ?_⟩
  calc wrap (powerModulo wordCount a k.toNat)
      ≡ powerModulo wordCount a k.toNat [ZMOD wordCount] := wrap_modEq _
    _ ≡ a ^ k.toNat [ZMOD wordCount] := powerModulo_modEq _ _ _
    _ ≡ m ^ k.toNat [ZMOD wordCount] := residue.pow _

/-- A polynomial has the residue of its exact number. -/
theorem IsPolynomial.hasResidue (polynomial : e.IsPolynomial)
    (bound : ∀ x, e.Mentions x → env.lookup x = some (.integer (values x))) :
    HasResidue env e (e.exact values) := by
  induction polynomial with
  | name x =>
    -- The only number that is taken over without a wrap.
    refine ⟨values x, ?_, rfl⟩
    simp only [evaluate, bound x rfl]
  | coefficient n => exact ⟨wrap n, rfl, wrap_modEq n⟩
  | negation _ ih => exact (ih bound).negation
  | sum _ _ ihLeft ihRight =>
    have left := ihLeft fun x mentioned => bound x (.inl mentioned)
    have right := ihRight fun x mentioned => bound x (.inr mentioned)
    exact left.binary rfl (fun _ _ => rfl) Int.ModEq.add right
  | difference _ _ ihLeft ihRight =>
    have left := ihLeft fun x mentioned => bound x (.inl mentioned)
    have right := ihRight fun x mentioned => bound x (.inr mentioned)
    exact left.binary rfl (fun _ _ => rfl) Int.ModEq.sub right
  | product _ _ ihLeft ihRight =>
    have left := ihLeft fun x mentioned => bound x (.inl mentioned)
    have right := ihRight fun x mentioned => bound x (.inr mentioned)
    exact left.binary rfl (fun _ _ => rfl) Int.ModEq.mul right
  | power _ lower upper ih =>
    have raised := ih fun x mentioned => bound x (.inl mentioned)
    exact raised.power lower upper

end Expr

/-- A polynomial of names with integers has an integer as its number, with the residue of the
exact number. It is the only integer of 32 bits with that residue, unless the tree is nothing but a
name: such a tree has the number that the environment gives it. -/
theorem polynomials_wrap_once (env : Environment) (values : String → Int) (e : Expr)
    (polynomial : e.IsPolynomial)
    (bound : ∀ x, e.Mentions x → env.lookup x = some (.integer (values x))) :
    ∃ n, e.execute env = .ok (.number (.integer n), env) ∧ n ≡ e.exact values [ZMOD wordCount] ∧
      (∀ x, e = .identifier x → n = values x) ∧
      ((∀ x, e = .identifier x → (Number.integer (values x)).Fits) →
        ∀ m, (smallestInteger ≤ m ∧ m ≤ largestInteger ∧ m ≡ e.exact values [ZMOD wordCount])
          ↔ m = n) := by
  obtain ⟨n, evaluated, congruent⟩ := polynomial.hasResidue bound
  have alone (x : String) (name : e = .identifier x) : n = values x := by
    subst name
    simp only [Expr.evaluate, bound x rfl, Except.ok.injEq, Number.integer.injEq] at evaluated
    exact evaluated.symm
  have plain : e.isAssignment = false := by
    cases polynomial <;> rfl
  refine ⟨n, ?_, congruent, alone, fun fits m => ?_⟩
  · rw [Expr.execute_of_isAssignment_eq_false env plain, evaluated]
    rfl
  -- Every tree but a name ends with a wrap, hence in the range where residues are unique.
  have inRange : (Number.integer n).Fits := by
    cases root : e.isIdentifier with
    | false => exact Expr.fits_of_evaluate root evaluated
    | true =>
      cases polynomial with
      | name x => exact alone x rfl ▸ fits x rfl
      | coefficient | negation | sum | difference | product | power => cases root
  constructor
  · rintro ⟨lower, upper, same⟩
    exact eq_of_modEq ⟨lower, upper⟩ inRange (same.trans congruent.symm)
  · rintro rfl
    exact ⟨inRange.1, inRange.2, congruent⟩

/-- The tree of `(-2147483648) ^ 3 - a * 0 ^ 0`. -/
def cubeLessName : Expr :=
  .binary .minus (.binary .power (.unary .negate (.integer 2147483648)) (.integer 3))
    (.binary .multiply (.identifier "a") (.binary .power (.integer 0) (.integer 0)))

/-- The exact number has 94 binary digits, and the power of zero by zero is one. -/
theorem cubeLessName_wraps_once :
    cubeLessName.IsPolynomial ∧
    cubeLessName.exact (fun _ => largestInteger) = -9903520314283042201340477439 ∧
    cubeLessName.execute (Environment.empty.assign "a" (.integer largestInteger))
      = .ok (.number (.integer (-2147483647)),
          Environment.empty.assign "a" (.integer largestInteger)) := by
  have polynomial : cubeLessName.IsPolynomial :=
    .difference (.power (.negation (.coefficient _)) (by decide) (by decide))
      (.product (.name "a") (.power (.coefficient 0) (by decide) (by decide)))
  have number : cubeLessName.exact (fun _ => largestInteger) = -9903520314283042201340477439 := by
    decide +kernel
  have bound (x : String) (mentioned : cubeLessName.Mentions x) :
      (Environment.empty.assign "a" (.integer largestInteger)).lookup x
        = some (.integer largestInteger) := by
    obtain rfl : "a" = x := by simpa [cubeLessName, Expr.Mentions] using mentioned
    exact Environment.lookup_assign_self _ _ _
  obtain ⟨n, executed, _, _, only⟩ := polynomials_wrap_once _ _ _ polynomial bound
  obtain rfl : -2147483647 = n :=
    (only (by nofun) _).mp ⟨by decide, by decide, by rw [number]; decide⟩
  exact ⟨polynomial, number, executed⟩

/-- A name with an integer of more than 32 bits has this integer as its number. No calculation
makes such an integer. -/
theorem largeName_is_not_wrapped :
    (Expr.identifier "a").IsPolynomial ∧
    (Expr.identifier "a").execute (Environment.empty.assign "a" (.integer 4294967296))
      = .ok (.number (.integer 4294967296),
          Environment.empty.assign "a" (.integer 4294967296)) ∧
    ¬(Number.integer 4294967296).Fits := by
  refine ⟨.name "a", ?_, fun fits => absurd fits.2 (by decide)⟩
  rw [Expr.execute_of_isAssignment_eq_false _ rfl]
  simp only [Expr.evaluate, Environment.lookup_assign_self, Except.map]

end Calculator
