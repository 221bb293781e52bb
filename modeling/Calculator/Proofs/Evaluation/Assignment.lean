import Calculator.Evaluation

/-!
# Assignments in a tree

An assignment has no number. A tree with a number therefore contains none, and a statement
writes to the environment only as an assignment to a name at its root, after its right side
has a number.
-/

namespace Calculator

namespace Environment

def Satisfies (env : Environment) (property : Number → Prop) : Prop :=
  ∀ name v, env.lookup name = some v → property v

variable {property : Number → Prop}

theorem satisfies_empty : empty.Satisfies property := by
  intro name v found
  cases found

theorem satisfies_assign {env : Environment} {name : String} {v : Number}
    (satisfies : env.Satisfies property) (value : property v) :
    (env.assign name v).Satisfies property := by
  intro other w found
  by_cases equal : other = name
  · rw [equal, lookup_assign_self] at found
    cases found
    exact value
  · rw [lookup_assign_of_ne env v equal] at found
    exact satisfies other w found

end Environment

theorem Operator.ne_assign_of_isArithmetic {op : Operator} (arithmetic : op.isArithmetic = true) :
    op ≠ .assign := by
  rintro rfl
  cases arithmetic

namespace Expr

def AssignmentFree : Expr → Prop
  | unary _ operand => operand.AssignmentFree
  | binary op left right => op ≠ .assign ∧ left.AssignmentFree ∧ right.AssignmentFree
  | _ => True

def isAssignment : Expr → Bool
  | binary .assign _ _ => true
  | _ => false

variable {env : Environment} {e : Expr}

theorem evaluate_unary_eq_ok {op : Operator} {v : Number}
    (evaluated : (unary op e).evaluate env = .ok v) :
    op = .negate ∧ ∃ a, e.evaluate env = .ok a ∧ v = a.negate := by
  simp only [evaluate] at evaluated
  split at evaluated
  · next negation =>
    cases inner : e.evaluate env with
    | error fault => simp only [inner] at evaluated; cases evaluated
    | ok a =>
      simp only [inner, Except.ok.injEq] at evaluated
      exact ⟨negation, a, rfl, evaluated.symm⟩
  · cases evaluated

/-- A binary node with a number has an operator that combines numbers, and its operands have
numbers. -/
theorem evaluate_binary_eq_ok {op : Operator} {l r : Expr} {v : Number}
    (evaluated : (binary op l r).evaluate env = .ok v) :
    op ≠ .assign ∧ op.isArithmetic = true ∧
      ∃ a b, l.evaluate env = .ok a ∧ r.evaluate env = .ok b ∧ Number.apply op a b = .ok v := by
  simp only [evaluate] at evaluated
  split at evaluated
  · cases evaluated
  · next other =>
    split at evaluated
    · cases evaluated
    · next arithmetic =>
      cases left : l.evaluate env with
      | error fault => simp only [left] at evaluated; cases evaluated
      | ok a =>
        cases right : r.evaluate env with
        | error fault => simp only [left, right] at evaluated; cases evaluated
        | ok b =>
          simp only [left, right] at evaluated
          exact ⟨other, by simpa using arithmetic, a, b, rfl, rfl, evaluated⟩

theorem evaluate_binary {op : Operator} {l r : Expr} {a b : Number}
    (arithmetic : op.isArithmetic = true) (left : l.evaluate env = .ok a)
    (right : r.evaluate env = .ok b) : (binary op l r).evaluate env = Number.apply op a b := by
  have other := Operator.ne_assign_of_isArithmetic arithmetic
  simp only [evaluate, if_neg other, arithmetic, Bool.true_eq_false, if_false, left, right]

/-- A tree with a number assigns nothing. -/
theorem assignmentFree_of_evaluate {v : Number} (evaluated : e.evaluate env = .ok v) :
    e.AssignmentFree := by
  induction e generalizing v with
  | identifier | integer | real => trivial
  | blank => cases evaluated
  | unary op operand ih =>
    obtain ⟨_, a, inner, _⟩ := evaluate_unary_eq_ok evaluated
    exact ih inner
  | binary op left right ihLeft ihRight =>
    obtain ⟨other, _, a, b, first, second, _⟩ := evaluate_binary_eq_ok evaluated
    exact ⟨other, ihLeft first, ihRight second⟩

/-- Without an assignment at its root a statement is evaluated like any tree. -/
theorem execute_of_isAssignment_eq_false (env : Environment) (plain : e.isAssignment = false) :
    e.execute env = (e.evaluate env).map fun v => (.number v, env) := by
  unfold execute
  split
  · cases plain
  · cases e.evaluate env <;> rfl

theorem execute_assign (env : Environment) (x : String) (r : Expr) :
    (binary .assign (identifier x) r).execute env
      = (r.evaluate env).map fun v => (.unit, env.assign x v) := by
  simp only [execute]
  cases r.evaluate env <;> rfl

theorem execute_badTarget {l : Expr} (other : l.isIdentifier = false) (r : Expr) :
    (binary .assign l r).execute env = .error (.badTarget l) := by
  cases l with
  | identifier x => cases other
  | integer | real | unary | binary | blank => rfl

/-- The root of a statement assigns to a name, assigns to something else, or assigns nothing. -/
theorem statement_cases (e : Expr) :
    e.isAssignment = false ∨ (∃ x r, e = binary .assign (identifier x) r) ∨
      ∃ l r, l.isIdentifier = false ∧ e = binary .assign l r := by
  cases root : e.isAssignment with
  | false => exact .inl rfl
  | true =>
    unfold isAssignment at root
    split at root
    · next l r =>
      cases l with
      | identifier x => exact .inr (.inl ⟨x, r, rfl⟩)
      | integer | real | unary | binary | blank => exact .inr (.inr ⟨_, r, rfl, rfl⟩)
    · cases root

theorem not_isAssignment_of_assignmentFree (free : e.AssignmentFree) : e.isAssignment = false := by
  unfold isAssignment
  split
  · exact absurd rfl free.1
  · rfl

theorem execute_eq_ok {value : Value} {after : Environment}
    (executed : e.execute env = .ok (value, after)) :
    (e.isAssignment = false ∧ after = env ∧ ∃ v, value = .number v ∧ e.evaluate env = .ok v) ∨
    ∃ x r v, e = binary .assign (identifier x) r ∧ value = .unit ∧ r.evaluate env = .ok v ∧
      after = env.assign x v := by
  -- The root decides: everything below it is evaluated without a way to write.
  rcases e.statement_cases with plain | ⟨x, r, rfl⟩ | ⟨l, r, other, rfl⟩
  · rw [execute_of_isAssignment_eq_false env plain] at executed
    cases result : e.evaluate env with
    | error fault => rw [result] at executed; cases executed
    | ok v =>
      rw [result] at executed
      cases executed
      exact .inl ⟨plain, rfl, v, rfl, rfl⟩
  · rw [execute_assign] at executed
    cases result : r.evaluate env with
    | error fault => rw [result] at executed; cases executed
    | ok v =>
      rw [result] at executed
      cases executed
      exact .inr ⟨x, r, v, rfl, rfl, result, rfl⟩
  · rw [execute_badTarget other] at executed
    cases executed

end Expr

end Calculator
