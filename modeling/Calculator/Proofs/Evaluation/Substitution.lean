import Calculator.Proofs.Evaluation.Assignment

/-!
# Substitution in a tree

A tree that stands for a name has the same effect as its number given to the name: evaluation
reads the environment only at names, and nothing is written before the root is reached.
-/

namespace Calculator.Expr

/-- The tree with another one in place of every node of a name. -/
def substitute (e : Expr) (name : String) (replacement : Expr) : Expr :=
  match e with
  | identifier other => if other = name then replacement else identifier other
  | unary op operand => unary op (operand.substitute name replacement)
  | binary op left right =>
    binary op (left.substitute name replacement) (right.substitute name replacement)
  | other => other

/-- No assignment of the tree has the name as its target. -/
def Untargeted (name : String) : Expr → Prop
  | unary _ operand => operand.Untargeted name
  | binary op left right => (op = .assign → left ≠ identifier name) ∧ left.Untargeted name ∧
      right.Untargeted name
  | _ => True

variable {env : Environment} {name : String} {replacement : Expr} {v : Number}

@[simp] theorem substitute_identifier_self :
    (identifier name).substitute name replacement = replacement := by
  simp only [substitute, if_true]

theorem substitute_identifier_of_ne {other : String} (different : other ≠ name) :
    (identifier other).substitute name replacement = identifier other := by
  simp only [substitute, if_neg different]

/-- A tree in place of a name has the same value as the tree's number given to the name. -/
theorem evaluate_substitute (value : replacement.evaluate env = .ok v) (e : Expr) :
    (e.substitute name replacement).evaluate env = e.evaluate (env.assign name v) := by
  induction e with
  | identifier other =>
    by_cases equal : other = name
    · rw [equal, substitute_identifier_self, value, evaluate, Environment.lookup_assign_self]
    · rw [substitute_identifier_of_ne equal, evaluate, evaluate,
        Environment.lookup_assign_of_ne env v equal]
  | integer | real | blank => rfl
  | unary op operand ih => simp only [substitute, evaluate, ih]
  | binary op left right ihLeft ihRight => simp only [substitute, evaluate, ihLeft, ihRight]

theorem isAssignment_substitute (value : replacement.evaluate env = .ok v) {e : Expr}
    (plain : e.isAssignment = false) : (e.substitute name replacement).isAssignment = false := by
  cases e with
  | identifier other =>
    by_cases equal : other = name
    · rw [equal, substitute_identifier_self]
      exact not_isAssignment_of_assignmentFree (assignmentFree_of_evaluate value)
    · rw [substitute_identifier_of_ne equal]
      exact plain
  | integer | real | unary | blank => rfl
  | binary op left right => cases op <;> first | rfl | cases plain

theorem execute_substitute (value : replacement.evaluate env = .ok v) {e : Expr}
    (plain : e.isAssignment = false) :
    (e.substitute name replacement).execute env
      = (e.evaluate (env.assign name v)).map fun w => (.number w, env) := by
  rw [execute_of_isAssignment_eq_false env (isAssignment_substitute value plain),
    evaluate_substitute value]

/-- An assignment to another name gives it the same number with the tree as with its number. -/
theorem execute_substitute_assign (value : replacement.evaluate env = .ok v) {target : String}
    (different : target ≠ name) (r : Expr) :
    ((binary .assign (identifier target) r).substitute name replacement).execute env
      = (r.evaluate (env.assign name v)).map fun w => (.unit, env.assign target w) := by
  rw [substitute, substitute_identifier_of_ne different, execute_assign, evaluate_substitute value]

end Calculator.Expr
