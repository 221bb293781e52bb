import Calculator.Proofs.Evaluation.Checks

/-!
# The kind of the number of a tree

An operation with a real operand is one of reals, so that a real anywhere in a tree makes a real of
the whole. Reals come from literals and from names; integers alone make one only as the power of an
integer with a negative exponent. Without such a source all numbers of the tree are integers, and
only then can it divide by zero.

## Main result

`reals_spread_to_the_root`: the kind of the number of a statement, and the place of a division by
zero.
-/

namespace Calculator

namespace Number

variable {op : Operator} {a b : Number}

theorem kind_eq_integer_iff : a.kind = .integer ↔ ¬a.kind = .real := by
  cases a <;> simp [kind]

theorem kind_negate : a.negate.kind = a.kind := by
  cases a <;> rfl

private theorem combinationFault?_eq_divisionByZero
    (found : combinationFault? op a b = some .divisionByZero) :
    op = .divide ∧ a.kind = .integer ∧ b = integer 0 := by
  unfold combinationFault? at found
  split at found
  · split at found <;> cases found
  · next integers =>
    split at found
    · next zero =>
      obtain ⟨rfl, rfl⟩ := zero
      cases a with
      | integer m => exact ⟨rfl, rfl, rfl⟩
      | real x => exact absurd trivial integers
    · cases found

end Number

namespace Expr

variable {env : Environment} {e l r : Expr} {op : Operator}

/-- A node that brings a real into a tree: a real literal, a name whose number is a real, or a power
whose base is an integer and whose exponent is a negative integer. -/
def IsRealSource (env : Environment) : Expr → Prop
  | real _ => True
  | identifier name => ∃ x, env.lookup name = some (.real x)
  | binary .power base exponent =>
    ∃ m n, base.evaluate env = .ok (.integer m) ∧ exponent.evaluate env = .ok (.integer n) ∧ n < 0
  | _ => False

def MakesReal (env : Environment) (e : Expr) : Prop :=
  ∃ node ∈ e.subtrees, node.IsRealSource env

private theorem isRealSource_binary : (binary op l r).IsRealSource env ↔ op = .power ∧
    ∃ m n, l.evaluate env = .ok (.integer m) ∧ r.evaluate env = .ok (.integer n) ∧ n < 0 := by
  cases op <;> simp [IsRealSource]

private theorem makesReal_unary : (unary op e).MakesReal env ↔ e.MakesReal env := by
  simp [MakesReal, subtrees, IsRealSource]

private theorem makesReal_binary : (binary op l r).MakesReal env ↔
    (binary op l r).IsRealSource env ∨ l.MakesReal env ∨ r.MakesReal env := by
  simp only [MakesReal, subtrees, List.mem_cons, List.mem_append, or_and_right, exists_or,
    exists_eq_left]

/-- The number of a tree is a real exactly when the tree has a source of reals. -/
theorem kind_eq_real_iff {v : Number} (evaluated : e.evaluate env = .ok v) :
    v.kind = .real ↔ e.MakesReal env := by
  induction e generalizing v with
  | blank => cases evaluated
  | integer n =>
    cases evaluated
    exact iff_of_false nofun (by simp [MakesReal, subtrees, IsRealSource])
  | real x =>
    cases evaluated
    exact iff_of_true rfl (by simp [MakesReal, subtrees, IsRealSource])
  | identifier name =>
    simp only [evaluate] at evaluated
    split at evaluated
    · next found =>
      cases evaluated
      cases v <;> simp [MakesReal, subtrees, IsRealSource, found, Number.kind]
    · cases evaluated
  | unary op operand ih =>
    obtain ⟨_, a, inner, rfl⟩ := evaluate_unary_eq_ok evaluated
    rw [Number.kind_negate, ih inner, makesReal_unary]
  | binary op left right ihLeft ihRight =>
    obtain ⟨_, arithmetic, a, b, first, second, applied⟩ := evaluate_binary_eq_ok evaluated
    rcases Number.combines arithmetic a b with ⟨fault, _, failed⟩ | ⟨_, w, result, kind⟩
    · rw [failed] at applied
      cases applied
    · rw [result] at applied
      cases applied
      -- The sources below make the operands reals; the node itself is one as a power of integers.
      rw [kind, Number.usesReals_iff, ihLeft first, ihRight second, makesReal_binary,
        isRealSource_binary, or_comm]
      simp only [first, second, Except.ok.injEq]

private theorem not_makesReal_of_kind {v : Number} (evaluated : e.evaluate env = .ok v)
    (integer : v.kind = .integer) : ¬e.MakesReal env := by
  rw [← kind_eq_real_iff evaluated]
  exact Number.kind_eq_integer_iff.mp integer

/-! ### Divisions by zero -/

/-- Once its operands have numbers, a node fails only for what keeps these from being combined. -/
theorem evaluate_eq_error_iff {a b : Number} {fault : Fault} (arithmetic : op.isArithmetic = true)
    (first : l.evaluate env = .ok a) (second : r.evaluate env = .ok b) :
    (binary op l r).evaluate env = .error fault ↔ Number.combinationFault? op a b = some fault := by
  rw [evaluate_binary arithmetic first second]
  rcases Number.combines arithmetic a b with ⟨cause, found, failed⟩ | ⟨none, v, result, _⟩
  · simp [found, failed]
  · simp [none, result]

/-- A node whose operands have numbers divides by zero only as a division without a source of reals
below it. -/
theorem of_evaluate_eq_divisionByZero {a b : Number} (first : l.evaluate env = .ok a)
    (second : r.evaluate env = .ok b)
    (failed : (binary op l r).evaluate env = .error .divisionByZero) :
    op = .divide ∧ ¬l.MakesReal env ∧ ¬r.MakesReal env := by
  have arithmetic : op.isArithmetic = true := by
    -- Any other operator is reported as misplaced.
    cases op with
    | plus | minus | multiply | divide | power => rfl
    | sentinel | assign | negate => simp [evaluate, Operator.isArithmetic] at failed
  have found := (evaluate_eq_error_iff arithmetic first second).mp failed
  obtain ⟨division, left, rfl⟩ := Number.combinationFault?_eq_divisionByZero found
  exact ⟨division, not_makesReal_of_kind first left, not_makesReal_of_kind second rfl⟩

/-- A tree divides by zero at one of its nodes, whose operands have numbers. -/
private theorem exists_divisionByZero (failed : e.evaluate env = .error .divisionByZero) :
    ∃ op l r a b, binary op l r ∈ e.subtrees ∧ l.evaluate env = .ok a ∧ r.evaluate env = .ok b ∧
      (binary op l r).evaluate env = .error .divisionByZero := by
  have reported : e.checks.findSome? (Check.fault? env) = some .divisionByZero := by
    rw [findSome?_checks, failed]
    rfl
  obtain ⟨check, member, fault⟩ := List.exists_of_findSome?_eq_some reported
  rcases mem_checks_iff.mp member with ⟨node, _, rfl⟩ | ⟨op, l, r, node, rfl⟩
  · -- Before its operands a node has other faults.
    cases node <;> grind [Check.fault?]
  · simp only [Check.fault?] at fault
    split at fault
    · next a b first second =>
      obtain ⟨rfl, _⟩ := Number.combinationFault?_eq_divisionByZero fault
      exact ⟨.divide, l, r, a, b, node, first, second,
        (evaluate_eq_error_iff rfl first second).mpr fault⟩
    · cases fault

/-- A statement whose target may be assigned fails as a tree in it does: the whole, or the right
side of the assignment. -/
theorem exists_evaluate_of_execute_error {fault : Fault} (failed : e.execute env = .error fault) :
    (∃ left, fault = .badTarget left) ∨
      ∃ t : Expr, t.subtrees ⊆ e.subtrees ∧ t.evaluate env = .error fault := by
  rw [← faultOf_eq_some_iff] at failed
  rcases e.statement_cases with plain | ⟨x, r, rfl⟩ | ⟨l, r, other, rfl⟩
  · rw [execute_of_isAssignment_eq_false env plain, faultOf_map, faultOf_eq_some_iff] at failed
    exact .inr ⟨e, List.Subset.refl _, failed⟩
  · rw [execute_assign, faultOf_map, faultOf_eq_some_iff] at failed
    refine .inr ⟨r, fun node member => ?_, failed⟩
    simp [subtrees, member]
  · rw [execute_badTarget other] at failed
    cases failed
    exact .inl ⟨l, rfl⟩

end Expr

/-- The number of a statement is a real exactly when its tree has a source of reals, and an integer
otherwise. A node divides by zero only as a division whose subtrees have no such source, and a
statement that divides by zero does so at a node. -/
theorem reals_spread_to_the_root (env : Environment) (e : Expr) :
    (∀ v after, e.execute env = .ok (.number v, after) →
      (v.kind = .real ↔ e.MakesReal env) ∧ (v.kind = .integer ↔ ¬e.MakesReal env)) ∧
    (∀ op l r a b, l.evaluate env = .ok a → r.evaluate env = .ok b →
      (Expr.binary op l r).evaluate env = .error .divisionByZero →
      op = .divide ∧ ¬l.MakesReal env ∧ ¬r.MakesReal env) ∧
    (e.execute env = .error .divisionByZero →
      ∃ op l r a b, .binary op l r ∈ e.subtrees ∧ l.evaluate env = .ok a ∧
        r.evaluate env = .ok b ∧ (Expr.binary op l r).evaluate env = .error .divisionByZero) := by
  refine ⟨fun v after executed => ?_, fun op l r a b => Expr.of_evaluate_eq_divisionByZero,
    fun failed => ?_⟩
  · rcases Expr.execute_eq_ok executed with ⟨_, _, w, same, evaluated⟩ | ⟨_, _, _, _, same, _⟩
    · cases same
      have real := Expr.kind_eq_real_iff evaluated
      exact ⟨real, Number.kind_eq_integer_iff.trans (not_congr real)⟩
    · cases same
  · rcases Expr.exists_evaluate_of_execute_error failed with ⟨left, wrong⟩ | ⟨t, within, failed⟩
    · cases wrong
    · obtain ⟨op, l, r, a, b, member, node⟩ := Expr.exists_divisionByZero failed
      exact ⟨op, l, r, a, b, within member, node⟩

/-- A real zero divides an integer: the name makes reals of the quotient and of the sum. -/
theorem realZero_divides :
    ∃ v, (Expr.binary .plus (.integer 1) (.binary .divide (.integer 7) (.identifier "x"))).execute
        (Environment.empty.assign "x" (.real (.number 0)))
      = .ok (.number v, Environment.empty.assign "x" (.real (.number 0))) ∧ v.kind = .real := by
  have executed : (Expr.binary .plus (.integer 1) (.binary .divide (.integer 7)
      (.identifier "x"))).execute (Environment.empty.assign "x" (.real (.number 0)))
        = .ok (.number (.real (.infinity false)),
            Environment.empty.assign "x" (.real (.number 0))) := by
    decide +kernel
  refine ⟨_, executed, ?_⟩
  refine ((reals_spread_to_the_root _ _).1 _ _ executed).1.mpr ?_
  exact ⟨.identifier "x", by simp [Expr.subtrees], .number 0, Environment.lookup_assign_self _ _ _⟩

end Calculator
