import Calculator.Proofs.Environment.Extensionality
import Calculator.Proofs.Evaluation.Assignment

/-!
# The names of a tree

The value of a tree, or the first fault in it, depends only on the numbers of the names that it
mentions. A variable that a statement does not mention may therefore be given a number before the
statement as well as after it.
-/

namespace Calculator.Expr

def Mentions (name : String) : Expr → Prop
  | identifier other => other = name
  | unary _ operand => operand.Mentions name
  | binary _ left right => left.Mentions name ∨ right.Mentions name
  | _ => False

variable {a b env : Environment} {e : Expr} {x : String} {v : Number}

theorem evaluate_congr (agree : ∀ name, e.Mentions name → a.lookup name = b.lookup name) :
    e.evaluate a = e.evaluate b := by
  induction e with
  | integer | real | blank => rfl
  | identifier name => simp only [evaluate, agree name rfl]
  | unary op operand ih => simp only [evaluate, ih agree]
  | binary op left right ihLeft ihRight =>
    simp only [evaluate, ihLeft fun name mentioned => agree name (.inl mentioned),
      ihRight fun name mentioned => agree name (.inr mentioned)]

theorem evaluate_assign (unmentioned : ¬e.Mentions x) :
    e.evaluate (env.assign x v) = e.evaluate env := by
  apply evaluate_congr
  intro name mentioned
  apply Environment.lookup_assign_of_ne
  rintro rfl
  exact unmentioned mentioned

/-- An assignment to a variable that a statement does not mention commutes with the statement. -/
theorem execute_assign_comm (unmentioned : ¬e.Mentions x) :
    e.execute (env.assign x v)
      = (e.execute env).map fun (value, after) => (value, after.assign x v) := by
  rcases e.statement_cases with plain | ⟨y, r, rfl⟩ | ⟨l, r, other, rfl⟩
  · simp only [execute_of_isAssignment_eq_false _ plain, evaluate_assign unmentioned]
    cases e.evaluate env <;> rfl
  · obtain ⟨inTarget, inRight⟩ := not_or.mp unmentioned
    -- The target is mentioned, so it is another variable.
    have different : x ≠ y := fun equal => inTarget equal.symm
    simp only [execute_assign, evaluate_assign inRight]
    cases r.evaluate env with
    | error fault => rfl
    | ok w => simp only [Except.map, Environment.assign_comm different]
  · rw [execute_badTarget other, execute_badTarget other]
    rfl

end Calculator.Expr
