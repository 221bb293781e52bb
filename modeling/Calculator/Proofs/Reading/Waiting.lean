import Calculator.Proofs.Reading.Reduction

/-!
# What the stacks hold

The tokens read so far, the operators that wait and the operands below them fit together:
each binary operator waits above a left operand that it completes, and above an operator
that does not yield to it; each sign and each open parenthesis waits with nothing of its own.
The ranks of waiting operators need not increase, since a sign may wait above a power. What
does hold is that every operator accepts on its right the phrase that the one above it
builds. Reductions keep this, so they can fail in one way only: the left side of an
assignment is no name.
-/

namespace Calculator

namespace Operator

/-- The phrase that an incoming operator completes on its left. The sentinel stands for the
end of a scope. -/
def leftPhrase : Operator → Phrase
  | power => .chain
  | negate => .unary
  | multiply | divide => .product
  | plus | minus | assign => .sum
  | sentinel => .assignment

def resultPhrase : Operator → Phrase
  | power => .power
  | negate => .unary
  | multiply | divide => .product
  | plus | minus => .sum
  | assign | sentinel => .assignment

/-- The least rank of the phrases that an operator accepts on its right. -/
def rightRank : Operator → Nat
  | power => 6
  | negate | multiply | divide => 4
  | plus | minus => 3
  | assign | sentinel => 1

private theorem rank_leftPhrase {op : Operator} (binary : op.arity = 2) :
    op.leftPhrase.rank = op.bound := by
  cases op <;> first | rfl | contradiction

/-- What an operator builds is accepted by the operator that waits below it. -/
private theorem rightRank_le_of_yieldsTo {below op : Operator} (binary : op.arity = 2)
    (waits : below.yieldsTo op = false) : below.rightRank ≤ op.resultPhrase.rank := by
  have looser := (below.yieldsTo_eq_false_iff op).mp waits
  revert binary looser
  cases below <;> cases op <;> decide

/-- The phrase of a binary operator is as loose as its rank, up to the unary phrases. -/
private theorem rank_le_resultPhrase {op : Operator} {rank : Nat} (binary : op.arity = 2)
    (loose : rank ≤ 3) (within : rank ≤ op.rank) : rank ≤ op.resultPhrase.rank := by
  cases op with
  | sentinel | negate => exact absurd binary (by decide)
  | power => exact Nat.le_trans loose (by decide)
  | assign | plus | minus | multiply | divide => exact within

/-- A sign yields to every binary operator but the power. -/
private theorem ne_negate_of_rank {op : Operator} (loose : op.rank < 4) : op ≠ negate := by
  rintro rfl
  exact absurd loose (by decide)

end Operator

def Negation (tokens : List Token) (e : Expr) : Prop :=
  ∃ sign operand x, tokens = sign :: operand ∧ sign.kind = .minus ∧ e = .unary .negate x ∧
    Derives .unary true operand x

def RightOperand (op : Operator) (tokens : List Token) (e : Expr) : Prop :=
  (∃ phrase, op.rightRank ≤ phrase.rank ∧ Derives phrase (op == .negate) tokens e) ∨
    Negation tokens e

/-- The tokens read, the operators that wait and the operands below them, where an operand is
due. The number counts the parentheses that are open. -/
inductive Awaits : Nat → List Token → List Operator → List Expr → Prop
  | start : Awaits 0 [] [.sentinel] []
  | opened {depth : Nat} {read : List Token} {operators : List Operator} {operands : List Expr}
      {token : Token} (waiting : Awaits depth read operators operands)
      (opens : token.kind = .leftParen) :
      Awaits (depth + 1) (read ++ [token]) (.sentinel :: operators) operands
  | negated {depth : Nat} {read : List Token} {operators : List Operator} {operands : List Expr}
      {token : Token} (waiting : Awaits depth read operators operands)
      (minus : token.kind = .minus) :
      Awaits depth (read ++ [token]) (.negate :: operators) operands
  | pushed {depth : Nat} {read spelled : List Token} {below op : Operator}
      {operators : List Operator} {operands : List Expr} {l : Expr} {token : Token}
      (waiting : Awaits depth read (below :: operators) operands)
      (left : Derives op.leftPhrase (below == .negate) spelled l)
      (binary : token.kind.binaryOperator? = some op) (waits : below.yieldsTo op = false) :
      Awaits depth (read ++ (spelled ++ [token])) (op :: below :: operators) (l :: operands)

namespace Awaits

variable {depth : Nat} {read : List Token} {operators : List Operator} {operands : List Expr}

theorem operators_eq_cons (awaits : Awaits depth read operators operands) :
    ∃ top below, operators = top :: below := by
  cases awaits <;> exact ⟨_, _, rfl⟩

/-- Outside all parentheses a scope is the whole statement. -/
theorem of_sentinel_zero (awaits : Awaits 0 read (.sentinel :: operators) operands) :
    read = [] ∧ operators = [] ∧ operands = [] := by
  cases awaits with
  | start => exact ⟨rfl, rfl, rfl⟩
  | pushed _ _ binary _ => exact absurd rfl (Operator.of_binaryOperator? binary).2.1

/-- Inside parentheses a scope begins at an opening one. -/
theorem of_sentinel_succ (awaits : Awaits (depth + 1) read (.sentinel :: operators) operands) :
    ∃ outer token, read = outer ++ [token] ∧ token.kind = .leftParen ∧
      Awaits depth outer operators operands := by
  cases awaits with
  | opened waiting opens => exact ⟨_, _, rfl, opens, waiting⟩
  | pushed _ _ binary _ => exact absurd rfl (Operator.of_binaryOperator? binary).2.1

end Awaits

/-! ### What a reduction builds -/

namespace RightOperand

variable {op : Operator} {tokens : List Token} {e : Expr}

theorem negation {sign : Token} (minus : sign.kind = .minus)
    (operand : Derives .unary true tokens e) :
    RightOperand op (sign :: tokens) (.unary .negate e) :=
  .inr ⟨sign, tokens, e, rfl, minus, rfl, operand⟩

/-- Except for a power, a sign with its operand is a phrase like any other. -/
theorem derives (operand : RightOperand op tokens e) (loose : op ≠ .power) :
    ∃ phrase, op.rightRank ≤ phrase.rank ∧ Derives phrase (op == .negate) tokens e := by
  rcases operand with phrase | ⟨sign, operand, x, rfl, minus, rfl, inner⟩
  · exact phrase
  · refine ⟨.unary, ?_, .negation minus inner⟩
    cases op <;> first | decide | exact absurd rfl loose

theorem unary (operand : RightOperand .negate tokens e) : Derives .unary true tokens e := by
  obtain ⟨phrase, tight, derives⟩ := operand.derives (by decide)
  exact derives.toUnary tight

/-- A binary operator builds its phrase from what it completes on its left and what it
accepts on its right. An assignment asks for a name on its left. -/
theorem binary {token : Token} {flag : Bool} {ls : List Token} {l : Expr}
    (operand : RightOperand op tokens e) (spelled : token.kind.binaryOperator? = some op)
    (left : Derives op.leftPhrase flag ls l) (target : op = .assign → l.isIdentifier = true) :
    Derives op.resultPhrase flag (ls ++ token :: tokens) (.binary op l e) := by
  cases op with
  | sentinel => exact absurd rfl (Operator.of_binaryOperator? spelled).2.1
  | negate => exact absurd rfl (Operator.of_binaryOperator? spelled).2.2.1
  | power =>
    -- A sign may follow a power, though its rank is lower: it takes the rest of the phrase.
    have caret := TokenKind.eq_caret spelled
    rcases operand with ⟨phrase, tight, derives⟩ | ⟨sign, inner, x, rfl, minus, rfl, derives⟩
    · have atom : phrase = .atom := by
        cases phrase <;> first | rfl | exact absurd tight (by decide)
      subst atom
      exact .ofChain (.raise left caret derives)
    · exact .raiseNegated left caret minus derives
  | multiply | divide =>
    obtain ⟨phrase, tight, derives⟩ := operand.derives (by decide)
    obtain rfl := left.negated_eq_false (by decide)
    exact .product left spelled (by decide) (derives.toUnary tight)
  | plus | minus =>
    obtain ⟨phrase, tight, derives⟩ := operand.derives (by decide)
    obtain rfl := left.negated_eq_false (by decide)
    exact .sum left spelled (by decide) (derives.toProduct tight)
  | assign =>
    obtain ⟨phrase, _, derives⟩ := operand.derives (by decide)
    obtain rfl := left.negated_eq_false (by decide)
    cases l with
    | identifier x => exact .assignment left (TokenKind.eq_equals spelled) derives.toAssignment
    | integer | real | unary | binary | blank => exact Bool.noConfusion (target rfl)

/-- What an operator builds is an operand of the one that waits below it. -/
private theorem ofResult {below : Operator} (binary : op.arity = 2)
    (waits : below.yieldsTo op = false)
    (built : Derives op.resultPhrase (below == .negate) tokens e) : RightOperand below tokens e :=
  .inl ⟨op.resultPhrase, Operator.rightRank_le_of_yieldsTo binary waits, built⟩

end RightOperand

/-! ### Runs of reductions -/

/-- The outcome of reductions that end where one operand is complete: it is a phrase above an
operator that waits, and no token was lost. Only an assignment can fail. -/
def Settled (depth : Nat) (complete : Operator → Bool) (target : Phrase) (read : List Token) :
    Except (ParseError × Stacks) Stacks → Prop
  | .error (error, _) => error = .targetExpected
  | .ok s => ∃ before spelled top below e operands,
      s = ⟨top :: below, e :: operands⟩ ∧ complete top = false ∧
      Awaits depth before (top :: below) operands ∧
      Derives target (top == .negate) spelled e ∧ before ++ spelled = read

/-- The operand above the waiting operators is one that the top operator accepts, and a phrase
of the target if that operator is not reduced. -/
def Ready (complete : Operator → Bool) (target : Phrase) (operators : List Operator)
    (tokens : List Token) (e : Expr) : Prop :=
  ∀ top below, operators = top :: below → RightOperand top tokens e ∧
    (complete top = false → Derives target (top == .negate) tokens e)

section Settling

variable {complete : Operator → Bool} {target : Phrase}

/-- An operand that may follow an operator which is not reduced is a phrase of the target. -/
theorem derives_target {top : Operator} {phrase : Phrase} {tokens : List Token} {e : Expr}
    (criterion : ∀ op, complete op = true ↔ target.rank ≤ op.rank) (loose : target.rank ≤ 3)
    (stops : complete top = false) (tight : target.rank ≤ phrase.rank)
    (derives : Derives phrase (top == .negate) tokens e) :
    Derives target (top == .negate) tokens e := by
  have below : ¬target.rank ≤ top.rank := fun above =>
    Bool.noConfusion (((criterion top).mpr above).symm.trans stops)
  have plain : (top == Operator.negate) = false :=
    beq_eq_false_iff_ne.mpr (Operator.ne_negate_of_rank (by omega))
  rw [plain] at derives ⊢
  exact derives.loosen loose tight

/-- Reductions that complete every operator from the rank of a loose phrase on settle in that
phrase. The induction is on the operators that wait. -/
theorem settled_reduceWhile {depth : Nat} {read tokens : List Token} {operators : List Operator}
    {operands : List Expr} {e : Expr}
    (criterion : ∀ op, complete op = true ↔ target.rank ≤ op.rank) (loose : target.rank ≤ 3)
    (awaits : Awaits depth read operators operands)
    (ready : Ready complete target operators tokens e) :
    Settled depth complete target (read ++ tokens)
      (Stacks.reduceWhile complete operators (e :: operands)) := by
  induction operators generalizing read tokens operands e with
  | nil => cases awaits
  | cons top below ih =>
    obtain ⟨operand, derives⟩ := ready top below rfl
    cases done : complete top with
    | false =>
      rw [Stacks.reduceWhile_stop done]
      exact ⟨read, tokens, top, below, e, operands, rfl, done, awaits, derives done, rfl⟩
    | true =>
      have rank := (criterion top).mp done
      cases awaits with
      -- A sentinel ranks below every target, so that no criterion reduces it.
      | start | opened => exact absurd rank (Nat.not_le.mpr target.one_le_rank)
      | @negated _ read _ _ sign waiting minus =>
        rw [Stacks.reduceWhile_negate done, List.append_assoc]
        have negation {flag : Bool} : Derives .unary flag (sign :: tokens) (.unary .negate e) :=
          .negation minus operand.unary
        exact ih waiting fun next rest _ => ⟨.negation minus operand.unary, fun stops =>
          derives_target criterion loose stops (Nat.le_trans loose (by decide)) negation⟩
      | @pushed _ read spelled next _ rest operands l token waiting left binary waits =>
        have arity := (Operator.of_binaryOperator? binary).1
        -- The target of an assignment is checked here and nowhere before.
        by_cases name : top = .assign → l.isIdentifier = true
        · have built := operand.binary binary left name
          rw [Stacks.reduceWhile_binary done arity name]
          have whole : read ++ (spelled ++ [token]) ++ tokens
              = read ++ (spelled ++ token :: tokens) := by simp
          rw [whole]
          refine ih waiting fun _ _ equal => ?_
          cases equal
          exact ⟨.ofResult arity waits built, fun stops => derives_target criterion loose stops
            (Operator.rank_le_resultPhrase arity loose rank) built⟩
        · obtain ⟨rfl, other⟩ := Classical.not_imp.mp name
          rw [Stacks.reduceWhile, if_pos done, combine_badTarget (Bool.not_eq_true _ ▸ other)]
          rfl

private theorem ready_of_atom {top : Operator} {below : List Operator} {tokens : List Token}
    {e : Expr} (criterion : ∀ op, complete op = true ↔ target.rank ≤ op.rank)
    (loose : target.rank ≤ 3) (atom : Derives .atom (top == .negate) tokens e) :
    Ready complete target (top :: below) tokens e := by
  intro _ _ equal
  cases equal
  refine ⟨.inl ⟨.atom, by cases top <;> decide, atom⟩, fun stops => ?_⟩
  exact derives_target criterion loose stops (Nat.le_trans loose (by decide)) atom

end Settling

namespace Awaits

variable {depth : Nat} {read spelled : List Token} {top : Operator} {below : List Operator}
  {operands : List Expr} {e : Expr}

/-- The end of a scope after a primary leaves the whole scope as one assignment. -/
theorem unwind (awaits : Awaits depth read (top :: below) operands)
    (atom : Derives .atom (top == .negate) spelled e) :
    Settled depth (· != .sentinel) .assignment (read ++ spelled)
      (Stacks.unwind ⟨top :: below, e :: operands⟩) :=
  settled_reduceWhile Operator.ne_sentinel_iff (by decide) awaits
    (ready_of_atom Operator.ne_sentinel_iff (by decide) atom)

/-- Reductions that complete the powers alone reduce at most one of them after a primary. -/
theorem settled_chain {complete : Operator → Bool}
    (criterion : ∀ op, complete op = true ↔ Phrase.chain.rank ≤ op.rank)
    (awaits : Awaits depth read (top :: below) operands)
    (atom : Derives .atom (top == .negate) spelled e) :
    Settled depth complete .chain (read ++ spelled)
      (Stacks.reduceWhile complete (top :: below) (e :: operands)) := by
  cases done : complete top with
  | false =>
    rw [Stacks.reduceWhile_stop done]
    exact ⟨read, spelled, top, below, e, operands, rfl, done, awaits, .ofAtom atom, rfl⟩
  | true =>
    -- Nothing but a power has the rank, and what waits below one is looser.
    have power : top = .power := by
      have rank := (criterion top).mp done
      cases top <;> first | rfl | exact absurd rank (by decide)
    subst power
    cases awaits with
    | @pushed _ read ls next _ rest operands l token waiting left binary waits =>
      have stops : complete next = false := by
        have looser := (next.yieldsTo_eq_false_iff .power).mp waits
        exact Bool.eq_false_iff.mpr fun more => absurd ((criterion next).mp more)
          (Nat.not_le.mpr looser)
      rw [Stacks.reduceWhile_binary done rfl nofun, Stacks.reduceWhile_stop stops]
      exact ⟨read, ls ++ token :: spelled, next, rest, .binary .power l e, operands, rfl, stops,
        waiting, .raise left (TokenKind.eq_caret binary) atom, by simp⟩

/-- A binary operator after a primary is pushed above a left operand that it completes, or the
left side of an assignment is no name. -/
theorem push {op : Operator} {token : Token} (awaits : Awaits depth read (top :: below) operands)
    (atom : Derives .atom (top == .negate) spelled e)
    (binary : token.kind.binaryOperator? = some op) :
    (∃ s, Stacks.push ⟨top :: below, e :: operands⟩ op = .error (.targetExpected, s)) ∨
    ∃ operators operands', Stacks.push ⟨top :: below, e :: operands⟩ op
        = .ok ⟨op :: operators, operands'⟩ ∧
      Awaits depth (read ++ spelled ++ [token]) (op :: operators) operands' := by
  have criterion (o : Operator) : o.yieldsTo op = true ↔ op.leftPhrase.rank ≤ o.rank := by
    rw [o.yieldsTo_iff op, Operator.rank_leftPhrase (Operator.of_binaryOperator? binary).1]
  have settled : Settled depth (·.yieldsTo op) op.leftPhrase (read ++ spelled)
      (Stacks.reduceWhile (·.yieldsTo op) (top :: below) (e :: operands)) := by
    -- An incoming power reduces powers alone, and its left side is a chain.
    by_cases loose : op.leftPhrase.rank ≤ 3
    · exact settled_reduceWhile criterion loose awaits (ready_of_atom criterion loose atom)
    · have chain : op.leftPhrase = .chain := by
        have ⟨arity, _⟩ := Operator.of_binaryOperator? binary
        cases op <;> first | rfl | contradiction
      rw [chain] at criterion ⊢
      exact settled_chain criterion awaits atom
  unfold Stacks.push
  revert settled
  cases Stacks.reduceWhile (·.yieldsTo op) (top :: below) (e :: operands) with
  | error failure =>
    obtain ⟨error, s⟩ := failure
    intro (settled : error = .targetExpected)
    exact .inl ⟨s, settled ▸ rfl⟩
  | ok s =>
    rintro ⟨before, left, next, rest, l, operands', rfl, waits, waiting, derives, whole⟩
    refine .inr ⟨next :: rest, l :: operands', rfl, ?_⟩
    rw [← whole, List.append_assoc]
    exact .pushed waiting derives binary waits

end Awaits

end Calculator
