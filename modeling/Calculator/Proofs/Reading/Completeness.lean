import Calculator.Proofs.Reading.Reduction
import Calculator.Proofs.Reading.Steps

/-!
# Every derivable statement is read

Tokens that spell a phrase take the reader from any stacks on which the phrase may stand to
stacks that stand for its tree. The induction is on the derivation. A tree is not on the
stacks yet when its last token was read, because reductions wait for the operator that
follows, so the induction carries what the stacks stand for and not what they hold.

## Main result

`ofTokens_of_derives`: a list of tokens that spells an assignment is read as its tree.
-/

namespace Calculator

namespace Stacks.Keeps

variable {rank : Nat} {op : Operator} {operators : List Operator}

theorem mono {low high : Nat} (keeps : Keeps low operators) (higher : low ≤ high) :
    Keeps high operators := by
  obtain ⟨top, below, rfl, waits⟩ := keeps
  exact ⟨top, below, rfl, fun op above => waits op (Nat.le_trans higher above)⟩

/-- An operator keeps below all operators from a rank on that is above its own. -/
theorem of_lt (lower : op.rank < rank) : Keeps rank (op :: operators) := by
  refine ⟨op, operators, rfl, fun incoming above _ => ?_⟩
  rw [op.yieldsTo_eq_false_iff]
  exact Nat.lt_of_lt_of_le lower (Nat.le_trans above incoming.rank_le_bound)

/-- An assignment keeps below operators of its own rank: it groups to the right. -/
theorem assign : Keeps Operator.assign.rank (.assign :: operators) := by
  refine ⟨.assign, operators, rfl, fun incoming above _ => ?_⟩
  cases incoming <;> first | rfl | contradiction

/-- A sign keeps below operators of its own rank, because no binary one has it. -/
theorem negate : Keeps Operator.negate.rank (.negate :: operators) := by
  refine ⟨.negate, operators, rfl, fun incoming above binary => ?_⟩
  cases incoming <;> first | rfl | contradiction

theorem top (keeps : Keeps rank operators) (above : rank ≤ op.rank) (binary : op ≠ .negate) :
    ∃ top below, operators = top :: below ∧ top.yieldsTo op = false := by
  obtain ⟨top, below, rfl, waits⟩ := keeps
  exact ⟨top, below, rfl, waits op above binary⟩

end Stacks.Keeps

private theorem readOperator_nil {s t : Stacks} (unwound : s.unwind = .ok t) :
    readOperator .expression 0 [] s = .ok ⟨[], t⟩ := by
  simp only [readOperator, reduceCtorEq, false_and, if_false, unwound]

/-! ### Phrases -/

/-- The tokens are read, whatever follows them, and leave stacks that stand for an operand on
top of the given ones. -/
def Reads (after : Bool) (tokens : List Token) (operators : List Operator)
    (operands : List Expr) (rank : Nat) (e : Expr) : Prop :=
  ∀ (depth : Nat) (rest : List Token), ∃ s : Stacks,
    readOperand .expression after depth (tokens ++ rest) ⟨operators, operands⟩
      = readOperator .expression depth rest s ∧
    s.StandsFor rank operators (e :: operands)

namespace Reads

open Stacks ReaderState

variable {after : Bool} {tokens ls rs : List Token} {operators : List Operator}
  {operands : List Expr} {rank lower upper : Nat} {e l r : Expr}

theorem mono (reads : Reads after tokens operators operands upper e) (lower : rank ≤ upper) :
    Reads after tokens operators operands rank e := by
  intro depth rest
  obtain ⟨s, read, stands⟩ := reads depth rest
  exact ⟨s, read, stands.mono lower⟩

theorem negation {sign : Token} (minus : sign.kind = .minus)
    (reads : Reads true tokens (.negate :: operators) operands rank e) (within : rank ≤ 4) :
    Reads after (sign :: tokens) operators operands rank (.unary .negate e) := by
  intro depth rest
  obtain ⟨s, read, stands⟩ := reads depth rest
  refine ⟨s, ?_, stands.negation within⟩
  rw [List.cons_append]
  exact (Step.sign minus).read_eq.trans read

theorem parentheses {opening closing : Token} (opens : opening.kind = .leftParen)
    (closes : closing.kind = .rightParen)
    (reads : Reads false tokens (.sentinel :: operators) operands 1 e) :
    Reads after (opening :: (tokens ++ [closing])) operators operands rank e := by
  intro depth rest
  obtain ⟨s, read, stands⟩ := reads (depth + 1) (closing :: rest)
  refine ⟨⟨operators, e :: operands⟩, ?_, .refl rank operators (e :: operands)⟩
  rw [List.cons_append, List.append_assoc]
  exact (Step.opening opens).read_eq.trans
    (read.trans (Step.closing closes stands.unwind).read_eq)

/-- A left operand that is complete before the operator, then the operator, then a right
operand. -/
theorem binary {op : Operator} {token : Token} (spelled : token.kind.binaryOperator? = some op)
    (left : Reads after ls operators operands lower l) (completes : op.bound ≤ lower)
    (keeps : ∃ top below, operators = top :: below ∧ top.yieldsTo op = false)
    (right : Reads false rs (op :: operators) (l :: operands) upper r)
    (within : rank ≤ upper) (loosest : rank ≤ op.rank)
    (target : op = .assign → l.isIdentifier = true) :
    Reads after (ls ++ token :: rs) operators operands rank (.binary op l r) := by
  intro depth rest
  have ⟨twoOperands, _⟩ := Operator.of_binaryOperator? spelled
  obtain ⟨first, readLeft, standsLeft⟩ := left depth (token :: (rs ++ rest))
  obtain ⟨second, readRight, standsRight⟩ := right depth rest
  have pushed := standsLeft.push completes keeps
  refine ⟨second, ?_, (standsRight.mono within).binary loosest twoOperands target⟩
  have whole : ¬(Extent.expression = .primary ∧ depth = 0) := by simp
  rw [List.append_assoc, List.cons_append, readLeft]
  exact (Step.binary whole spelled pushed).read_eq.trans readRight

end Reads

open Stacks ReaderState in
/-- A phrase is read above every operator that does not yield to the operators of the phrase. -/
theorem reads_of_derives {phrase : Phrase} {negated after : Bool} {tokens : List Token} {e : Expr}
    {operators : List Operator} {operands : List Expr}
    (derives : Derives phrase negated tokens e) (sign : negated = true → after = true)
    (keeps : Keeps phrase.rank operators) :
    Reads after tokens operators operands phrase.rank e := by
  induction derives generalizing after operators operands with
  | name identifier =>
    exact fun _ _ => ⟨_, (Step.name identifier).read_eq, .refl _ _ _⟩
  | letName word identifier =>
    exact fun _ _ => ⟨_, (Step.letName word identifier).read_eq, .refl _ _ _⟩
  | integer kind value range =>
    exact fun _ _ => ⟨_, (Step.integer kind value (range.imp_right sign)).read_eq, .refl _ _ _⟩
  | real kind value =>
    exact fun _ _ => ⟨_, (Step.real kind value).read_eq, .refl _ _ _⟩
  | parentheses opens closes _ ih =>
    -- The sentinel ranks below every operator of the inner phrase.
    exact .parentheses opens closes (ih (fun plain => plain) (.of_lt (by decide)))
  | ofAtom _ ih => exact (ih sign (keeps.mono (by decide))).mono (by decide)
  | raise _ power _ ihLeft ihRight =>
    exact .binary (congrArg TokenKind.binaryOperator? power) (ihLeft sign keeps) (by decide)
      (keeps.top (by decide) (by decide)) (ihRight nofun (.of_lt (by decide))) (by decide)
      (by decide) nofun
  | ofChain _ ih => exact (ih sign (keeps.mono (by decide))).mono (by decide)
  | raiseNegated _ power minus _ ihLeft ihRight =>
    -- The sign ranks below the power before it, but it is pushed without a reduction.
    exact .binary (congrArg TokenKind.binaryOperator? power)
      (ihLeft sign (keeps.mono (by decide))) (by decide) (keeps.top (by decide) (by decide))
      (.negation minus (ihRight (fun _ => rfl) .negate) (by decide)) (Nat.le_refl _) (by decide)
      nofun
  | ofPower _ ih => exact (ih sign keeps).mono (by decide)
  | negation minus _ ih =>
    exact .negation minus (ih (fun _ => rfl) .negate) (by decide)
  | ofUnary _ ih => exact (ih nofun (keeps.mono (by decide))).mono (by decide)
  | product _ spelled family _ ihLeft ihRight =>
    rcases family with rfl | rfl <;>
      exact .binary spelled (ihLeft nofun keeps) (by decide) (keeps.top (by decide) (by decide))
        (ihRight nofun (.of_lt (by decide))) (by decide) (by decide) nofun
  | ofProduct _ ih => exact (ih nofun (keeps.mono (by decide))).mono (by decide)
  | sum _ spelled family _ ihLeft ihRight =>
    rcases family with rfl | rfl <;>
      exact .binary spelled (ihLeft nofun keeps) (by decide) (keeps.top (by decide) (by decide))
        (ihRight nofun (.of_lt (by decide))) (by decide) (by decide) nofun
  | ofSum _ ih => exact (ih nofun (keeps.mono (by decide))).mono (by decide)
  | assignment _ equals _ ihTarget ihRight =>
    -- The right side may assign again: equal ranks do not reduce the waiting assignment.
    exact .binary (congrArg TokenKind.binaryOperator? equals)
      (ihTarget nofun (keeps.mono (by decide))) (by decide) (keeps.top (by decide) (by decide))
      (ihRight nofun .assign) (by decide) (by decide) (fun _ => rfl)

/-- A statement that spells an assignment is read as its tree. -/
theorem ofTokens_of_derives {tokens : List Token} {e : Expr}
    (derives : Derives .assignment false tokens e) : Expr.ofTokens tokens = .ok (some e) := by
  have reads : Reads false tokens [.sentinel] [] 1 e :=
    reads_of_derives derives (fun plain => plain) (.of_lt (by decide))
  obtain ⟨s, read, stands⟩ := reads 0 []
  rw [List.append_nil] at read
  have whole : readOperand .expression false 0 tokens .start
      = .ok ⟨[], ⟨[.sentinel], [e]⟩⟩ := read.trans (readOperator_nil stands.unwind)
  simp only [Expr.ofTokens, Reading.start, Reading.statement, if_neg derives.tokens_ne_nil,
    Reading.expression, Reading.withProgress, whole]

end Calculator
