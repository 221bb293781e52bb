import Calculator.Proofs.Reading.Grammar

/-!
# Reductions

What one reduction does to the stacks, and what a run of reductions leaves of them. A
binary operator or a sign that waits with its last operand stands for the tree that a later
reduction builds: for every criterion that reduces it, the two stacks lead to the same
result. Pushing an operator and ending a scope are such criteria.
-/

namespace Calculator

namespace Operator

/-- The least rank that is complete before an incoming operator. -/
def bound : Operator → Nat
  | assign => 2
  | op => op.rank

theorem rank_le_bound (op : Operator) : op.rank ≤ op.bound := by
  cases op <;> decide

/-- An operator is complete before an incoming one exactly from a rank on. -/
theorem yieldsTo_iff (top incoming : Operator) :
    top.yieldsTo incoming = true ↔ incoming.bound ≤ top.rank := by
  cases top <;> cases incoming <;> decide

theorem yieldsTo_eq_false_iff (top incoming : Operator) :
    top.yieldsTo incoming = false ↔ top.rank < incoming.bound := by
  rw [← Bool.not_eq_true, yieldsTo_iff, Nat.not_le]

theorem ne_sentinel_iff (op : Operator) : (op != sentinel) = true ↔ 1 ≤ op.rank := by
  cases op <;> decide

/-- The operators that stand between two operands. -/
theorem of_binaryOperator? {kind : TokenKind} {op : Operator}
    (spelled : kind.binaryOperator? = some op) :
    op.arity = 2 ∧ op ≠ sentinel ∧ op ≠ negate ∧ 1 ≤ op.rank := by
  cases kind <;> simp only [TokenKind.binaryOperator?, Option.some.injEq, reduceCtorEq] at spelled
  all_goals subst spelled; decide

/-- A sentinel waits for every binary operator. -/
theorem sentinel_yieldsTo_binary {kind : TokenKind} {op : Operator}
    (spelled : kind.binaryOperator? = some op) : sentinel.yieldsTo op = false := by
  obtain ⟨_, _, _, tight⟩ := of_binaryOperator? spelled
  exact (yieldsTo_eq_false_iff _ _).mpr (Nat.le_trans tight op.rank_le_bound)

end Operator

theorem TokenKind.eq_caret {kind : TokenKind} (spelled : kind.binaryOperator? = some .power) :
    kind = .caret := by
  cases kind <;> first | rfl | cases spelled

theorem TokenKind.eq_equals {kind : TokenKind} (spelled : kind.binaryOperator? = some .assign) :
    kind = .equals := by
  cases kind <;> first | rfl | cases spelled

/-! ### Single reductions -/

private theorem combine_negate (operand : Expr) (rest : List Expr) :
    combine .negate (operand :: rest) = .ok (.unary .negate operand :: rest) := rfl

theorem combine_binary {op : Operator} (binary : op.arity = 2) {left : Expr}
    (target : op = .assign → left.isIdentifier = true) (right : Expr) (rest : List Expr) :
    combine op (right :: left :: rest) = .ok (.binary op left right :: rest) := by
  have allowed : ¬(op = .assign ∧ left.isIdentifier = false) := by
    rintro ⟨assign, other⟩
    rw [target assign] at other
    exact Bool.noConfusion other
  simp only [combine, binary, if_neg allowed]

theorem combine_badTarget {left : Expr} (other : left.isIdentifier = false) (right : Expr)
    (rest : List Expr) :
    combine .assign (right :: left :: rest) = .error (.targetExpected, rest) := by
  simp only [combine, Operator.arity, other, and_self, if_true]

namespace Stacks

variable {complete : Operator → Bool} {op top : Operator} {operators : List Operator}
  {operands : List Expr}

theorem reduceWhile_stop (waits : complete top = false) :
    reduceWhile complete (top :: operators) operands = .ok ⟨top :: operators, operands⟩ := by
  rw [reduceWhile, waits]
  rfl

theorem reduceWhile_negate (done : complete .negate = true) (operand : Expr) :
    reduceWhile complete (.negate :: operators) (operand :: operands)
      = reduceWhile complete operators (.unary .negate operand :: operands) := by
  rw [reduceWhile, if_pos done, combine_negate]

theorem reduceWhile_binary (done : complete op = true) (binary : op.arity = 2) {left : Expr}
    (target : op = .assign → left.isIdentifier = true) (right : Expr) :
    reduceWhile complete (op :: operators) (right :: left :: operands)
      = reduceWhile complete operators (.binary op left right :: operands) := by
  rw [reduceWhile, if_pos done, combine_binary binary target]

/-- Reductions that succeed stop above an operator that is not complete. -/
private theorem exists_of_reduceWhile {s : Stacks}
    (reduced : reduceWhile complete operators operands = .ok s) :
    ∃ top below, s.operators = top :: below ∧ complete top = false := by
  induction operators generalizing operands with
  | nil => cases reduced
  | cons next rest ih =>
    rw [reduceWhile] at reduced
    split at reduced
    · split at reduced
      · exact ih reduced
      · cases reduced
    · next waits =>
      cases reduced
      exact ⟨next, rest, rfl, Bool.eq_false_iff.mpr waits⟩

/-- The end of a scope finds the sentinel that the scope began with. -/
theorem sentinel_of_unwind {s t : Stacks} (unwound : s.unwind = .ok t) :
    ∃ below, t.operators = .sentinel :: below := by
  obtain ⟨top, below, equal, stops⟩ := exists_of_reduceWhile unwound
  have sentinel : top = .sentinel := by simpa using stops
  exact ⟨below, sentinel ▸ equal⟩

/-! ### Stacks that stand for an operand -/

/-- The stacks lead to the same result as given ones as soon as all operators of at least a
rank are complete. -/
def StandsFor (s : Stacks) (rank : Nat) (operators : List Operator) (operands : List Expr) :
    Prop :=
  ∀ complete : Operator → Bool, (∀ op, rank ≤ op.rank → complete op = true) →
    reduceWhile complete s.operators s.operands = reduceWhile complete operators operands

/-- What waits on top of the operators stays when a binary operator of at least a rank comes. -/
def Keeps (rank : Nat) (operators : List Operator) : Prop :=
  ∃ top below, operators = top :: below ∧
    ∀ op, rank ≤ op.rank → op ≠ .negate → top.yieldsTo op = false

theorem StandsFor.refl (rank : Nat) (operators : List Operator) (operands : List Expr) :
    StandsFor ⟨operators, operands⟩ rank operators operands :=
  fun _ _ => rfl

theorem StandsFor.mono {s : Stacks} {high low : Nat} (stands : s.StandsFor high operators operands)
    (lower : low ≤ high) : s.StandsFor low operators operands :=
  fun complete done => stands complete fun op above => done op (Nat.le_trans lower above)

theorem StandsFor.negation {s : Stacks} {rank : Nat} {operand : Expr}
    (stands : s.StandsFor rank (.negate :: operators) (operand :: operands)) (within : rank ≤ 4) :
    s.StandsFor rank operators (.unary .negate operand :: operands) := by
  intro complete done
  rw [stands complete done, reduceWhile_negate (done .negate within)]

theorem StandsFor.binary {s : Stacks} {rank : Nat} {left right : Expr}
    (stands : s.StandsFor rank (op :: operators) (right :: left :: operands))
    (within : rank ≤ op.rank) (binary : op.arity = 2)
    (target : op = .assign → left.isIdentifier = true) :
    s.StandsFor rank operators (.binary op left right :: operands) := by
  intro complete done
  rw [stands complete done, reduceWhile_binary (done op within) binary target]

/-- Pushing an operator reduces what binds at least as tightly, and keeps what waits. -/
theorem StandsFor.push {s : Stacks} {rank : Nat}
    (stands : s.StandsFor rank operators operands) (tight : op.bound ≤ rank)
    (keeps : ∃ top below, operators = top :: below ∧ top.yieldsTo op = false) :
    s.push op = .ok ⟨op :: operators, operands⟩ := by
  obtain ⟨top, below, rfl, waits⟩ := keeps
  have result :
      reduceWhile (·.yieldsTo op) s.operators s.operands = .ok ⟨top :: below, operands⟩ := by
    rw [stands _ fun o above => (o.yieldsTo_iff op).mpr (Nat.le_trans tight above)]
    exact reduceWhile_stop waits
  rw [Stacks.push, result]
  rfl

/-- The end of a scope reduces everything above the sentinel. -/
theorem StandsFor.unwind {s : Stacks} (stands : s.StandsFor 1 (.sentinel :: operators) operands) :
    s.unwind = .ok ⟨.sentinel :: operators, operands⟩ := by
  rw [Stacks.unwind, stands _ fun op above => op.ne_sentinel_iff.mpr above]
  exact reduceWhile_stop rfl

end Stacks

end Calculator
