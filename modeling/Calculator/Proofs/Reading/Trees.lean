import Calculator.Proofs.Evaluation.Assignment
import Calculator.Proofs.Reading.Soundness

/-!
# The trees of statements

Reading builds well-formed trees only: each node passes the check of its constructor, and
evaluation knows what to do with it.
-/

namespace Calculator

namespace Expr

/-- Unary nodes negate, binary nodes carry a binary operator and can be built from their
operands, and no node is blank. -/
def WellFormed : Expr → Prop
  | unary op operand => op = .negate ∧ operand.WellFormed
  | binary op left right => op.arity = 2 ∧ mkBinary op left right = .ok (binary op left right) ∧
      left.WellFormed ∧ right.WellFormed
  | blank => False
  | _ => True

theorem mkBinary_of_ne_assign {op : Operator} (other : op ≠ .assign) (l r : Expr) :
    mkBinary op l r = .ok (binary op l r) := by
  simp only [mkBinary, other, false_and, if_false]

theorem wellFormed_binary {op : Operator} {l r : Expr} (arity : op.arity = 2)
    (other : op ≠ .assign) (left : l.WellFormed) (right : r.WellFormed) :
    (binary op l r).WellFormed :=
  ⟨arity, mkBinary_of_ne_assign other l r, left, right⟩

theorem exists_target {e : Expr} (wellFormed : e.WellFormed) (root : e.isAssignment = true) :
    ∃ x r, e = binary .assign (identifier x) r := by
  rcases e.statement_cases with plain | assigns | ⟨l, r, other, rfl⟩
  · exact Bool.noConfusion (plain.symm.trans root)
  · exact assigns
  · obtain ⟨_, built, _⟩ := wellFormed
    simp [mkBinary, other] at built

end Expr

/-- A reduction puts back a binary node only where its constructor admits the target. -/
theorem mkBinary_of_combine {op built : Operator} {l r : Expr} {operands rest : List Expr}
    (combined : combine op operands = .ok (.binary built l r :: rest)) :
    Expr.mkBinary built l r = .ok (.binary built l r) := by
  unfold combine at combined
  split at combined
  · cases combined
  · cases combined
  · split at combined
    · cases combined
    · next admitted =>
      cases combined
      rw [Expr.mkBinary, if_neg admitted]
  · cases combined

/-- What the grammar derives is well-formed. -/
theorem Derives.wellFormed {phrase : Phrase} {negated : Bool} {tokens : List Token} {e : Expr}
    (derives : Derives phrase negated tokens e) : e.WellFormed := by
  induction derives with
  | name | letName | integer | real => trivial
  | parentheses _ _ _ inner => exact inner
  | ofAtom _ inner | ofChain _ inner | ofPower _ inner | ofUnary _ inner | ofProduct _ inner
  | ofSum _ inner => exact inner
  | raise _ _ _ left right => exact Expr.wellFormed_binary rfl (by decide) left right
  | raiseNegated _ _ _ _ left right =>
    exact Expr.wellFormed_binary rfl (by decide) left ⟨rfl, right⟩
  | negation _ _ operand => exact ⟨rfl, operand⟩
  | product _ _ family _ left right =>
    rcases family with rfl | rfl <;> exact Expr.wellFormed_binary rfl (by decide) left right
  | sum _ _ family _ left right =>
    rcases family with rfl | rfl <;> exact Expr.wellFormed_binary rfl (by decide) left right
  | assignment _ _ _ target right => exact ⟨rfl, rfl, target, right⟩

theorem wellFormed_of_ofTokens {tokens : List Token} {e : Expr}
    (read : Expr.ofTokens tokens = .ok (some e)) : e.WellFormed :=
  (derives_of_ofTokens read).wellFormed

end Calculator
