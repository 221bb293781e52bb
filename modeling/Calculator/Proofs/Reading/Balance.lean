import Calculator.Proofs.Reading.Moves
import Mathlib.Data.List.Chain
import Mathlib.Data.List.Count

/-!
# The balance of the stacks

The ranks of the operators that wait need not increase: a prefix minus is pushed above whatever
waits. What holds from the first token to the last is that no operator waits directly above one
that it completes, unless it is a minus or begins a scope, that there is a sentinel for each open
scope with the first one at the bottom, and that each binary operator that waits has its left
operand. No reduction runs out of operands or past a sentinel for this reason.

The operators of the tokens are those that are still to be read, those that wait, and those that
were reduced. A move takes an operator from one of the three to the next, so that each is reduced
once when none is left in the first two.

## Main result

`stacks_stay_balanced`: what holds between any two moves, and what was reduced at the end.
-/

namespace Calculator

open Relation ReaderState

/-! ### Operators in order -/

/-- The operators that wait, the latest first: a sentinel for each scope, the first at the bottom,
and no binary operator directly above one that it completes. -/
structure IsOrderly (depth : Nat) (operators : List Operator) : Prop where
  rooted : operators.getLast? = some .sentinel
  scopes : operators.count .sentinel = depth + 1
  ordered : operators.IsChain fun above below =>
    above ≠ .sentinel → above ≠ .negate → below.yieldsTo above = false

namespace IsOrderly

variable {depth : Nat} {op : Operator} {operators : List Operator}

theorem start : IsOrderly 0 [.sentinel] :=
  ⟨rfl, rfl, .singleton _⟩

theorem addSentinel (orderly : IsOrderly depth operators) :
    IsOrderly (depth + 1) (.sentinel :: operators) where
  rooted := by rw [List.getLast?_cons, orderly.rooted, Option.getD_some]
  scopes := by rw [List.count_cons_self, orderly.scopes]
  ordered := List.isChain_cons.mpr ⟨fun _ _ scope => absurd rfl scope, orderly.ordered⟩

theorem add (orderly : IsOrderly depth operators) (operator : op ≠ .sentinel)
    (waits : ∀ top ∈ operators.head?, op ≠ .negate → top.yieldsTo op = false) :
    IsOrderly depth (op :: operators) where
  rooted := by rw [List.getLast?_cons, orderly.rooted, Option.getD_some]
  scopes := by rw [List.count_cons_of_ne operator, orderly.scopes]
  ordered := List.isChain_cons.mpr ⟨fun top member _ => waits top member, orderly.ordered⟩

/-- A minus waits above any operator. -/
theorem addNegate (orderly : IsOrderly depth operators) :
    IsOrderly depth (.negate :: operators) :=
  orderly.add (by decide) fun _ _ sign => absurd rfl sign

theorem push {top : Operator} (orderly : IsOrderly depth (top :: operators))
    (operator : op ≠ .sentinel) (waits : top.yieldsTo op = false) :
    IsOrderly depth (op :: top :: operators) := by
  refine orderly.add operator fun other member _ => ?_
  obtain rfl : top = other := Option.some.inj member
  exact waits

/-- What lies below an operator is in order, if a sentinel is left for each scope. -/
theorem tail {left : Nat} (orderly : IsOrderly depth (op :: operators))
    (scopes : operators.count .sentinel = left + 1) : IsOrderly left operators where
  rooted := by
    -- A sentinel is left, so the operator was not the last one.
    have nonempty : operators ≠ [] := by
      rintro rfl
      cases scopes
    obtain ⟨last, found⟩ := Option.isSome_iff_exists.mp (List.getLast?_isSome.mpr nonempty)
    have rooted := orderly.rooted
    rwa [List.getLast?_cons, found, Option.getD_some, ← found] at rooted
  scopes := scopes
  ordered := (List.isChain_cons.mp orderly.ordered).2

theorem reduce (orderly : IsOrderly depth (op :: operators)) (operator : op ≠ .sentinel) :
    IsOrderly depth operators := by
  have scopes := orderly.scopes
  rw [List.count_cons_of_ne operator] at scopes
  exact orderly.tail scopes

private theorem dropSentinel (orderly : IsOrderly (depth + 1) (.sentinel :: operators)) :
    IsOrderly depth operators := by
  have scopes := orderly.scopes
  rw [List.count_cons_self, Nat.add_right_cancel_iff] at scopes
  exact orderly.tail scopes

end IsOrderly

/-! ### Operators with their operands -/

def binaryCount (operators : List Operator) : Nat :=
  operators.countP (·.arity = 2)

/-- A binary operator waits with one of its operands, any other with none. -/
theorem binaryCount_cons (op : Operator) (operators : List Operator) :
    binaryCount (op :: operators) = binaryCount operators + (op.arity - 1) := by
  rw [binaryCount, List.countP_cons]
  cases op <;> rfl

/-- The operands that belong to no operator yet: one directly after a primary. -/
def Phase.spare : Phase → Nat
  | due (.operand _) => 0
  | _ => 1

def Phase.TakesBinary : Phase → Prop
  | pushing incoming => ∃ kind : TokenKind, kind.binaryOperator? = some incoming.operator
  | _ => True

/-- The operators are in order, an operator that is pushed is a binary one, and there is an operand
for each binary operator that waits, and one more after a primary. -/
structure Moment.IsBalanced (m : Moment) : Prop where
  orderly : IsOrderly m.depth m.operators
  incoming : m.phase.TakesBinary
  counted : m.operands.length = binaryCount m.operators + m.phase.spare

/-- A reduction takes as many operands as its operator needs, and puts one back. -/
private theorem length_of_combine {op : Operator} {operands left : List Expr}
    (combined : combine op operands = .ok left) :
    op ≠ .sentinel ∧ left.length + op.arity = operands.length + 1 := by
  unfold combine at combined
  split at combined
  · cases combined
  · next unary =>
    cases combined
    refine ⟨?_, by rw [unary, List.length_cons, List.length_cons]⟩
    rintro rfl
    cases unary
  · next binary =>
    split at combined
    · cases combined
    · cases combined
      refine ⟨?_, by rw [binary]; rfl⟩
      rintro rfl
      cases binary
  · cases combined

/-- With enough operands only the target of an assignment can be wrong. -/
private theorem error_of_combine {op : Operator} {operands left : List Expr} {error : ParseError}
    (operator : op ≠ .sentinel) (enough : op.arity ≤ operands.length)
    (failed : combine op operands = .error (error, left)) : error = .targetExpected := by
  -- A stack with fewer operands than the arity is not long enough.
  cases op with
  | sentinel => exact absurd rfl operator
  | negate =>
    cases operands with
    | nil => exact absurd enough (by decide)
    | cons operand rest => cases failed
  | assign =>
    cases operands with
    | nil => exact absurd enough (by decide)
    | cons right below =>
      cases below with
      | nil => exact absurd enough (by simp [Operator.arity])
      | cons target rest =>
        cases name : target.isIdentifier with
        | true =>
          rw [combine_binary rfl fun _ => name] at failed
          cases failed
        | false =>
          rw [combine_badTarget name] at failed
          cases failed
          rfl
  | plus | minus | multiply | divide | power =>
    cases operands with
    | nil => exact absurd enough (by decide)
    | cons right below =>
      cases below with
      | nil => exact absurd enough (by simp [Operator.arity])
      | cons left rest => cases failed

namespace Moment.IsBalanced

variable {m next : Moment}

theorem start (tokens : List Token) : (Moment.start tokens).IsBalanced :=
  ⟨.start, trivial, rfl⟩

/-- One move keeps the balance. -/
theorem move (balanced : m.IsBalanced) (move : Move m next) : next.IsBalanced := by
  obtain ⟨orderly, incoming, counted⟩ := balanced
  cases move with
  | operand reads => exact ⟨orderly, trivial, congrArg (· + 1) counted⟩
  | @opening _ _ _ _ waiting _ _ opens =>
    have same := binaryCount_cons .sentinel (waiting.map (·.operator))
    exact ⟨orderly.addSentinel, trivial, counted.trans same.symm⟩
  | @sign _ _ _ _ waiting _ _ minus =>
    have same := binaryCount_cons .negate (waiting.map (·.operator))
    exact ⟨orderly.addNegate, trivial, counted.trans same.symm⟩
  | @incoming _ token _ _ _ _ _ spelled =>
    exact ⟨orderly, ⟨token.kind, spelled⟩, counted⟩
  | ending none => exact ⟨orderly, trivial, counted⟩
  | @reduce phase _ _ top waiting operands left _ complete popped =>
    obtain ⟨operator, taken⟩ := length_of_combine (Stacks.reduce_eq_ok_iff.mp popped)
    refine ⟨orderly.reduce operator, incoming, ?_⟩
    -- Of the operands that the operator takes, one comes back as the new operand.
    have fewer := binaryCount_cons top.operator (waiting.map (·.operator))
    have needs : 1 ≤ top.operator.arity := by
      cases kind : top.operator <;> first | decide | exact absurd kind operator
    simp only [operators, List.map_cons] at counted ⊢
    omega
  | @pushed operator _ _ top waiting _ _ waits =>
    obtain ⟨kind, spelled⟩ := incoming
    obtain ⟨binary, ordinary, _, _⟩ := Operator.of_binaryOperator? spelled
    -- The spare operand becomes the left operand of the operator.
    have more := binaryCount_cons operator.operator ((top :: waiting).map (·.operator))
    rw [binary] at more
    exact ⟨orderly.push ordinary waits, trivial, counted.trans more.symm⟩
  | @closed _ _ _ scope waiting _ _ closes emptied =>
    have same := binaryCount_cons scope.operator (waiting.map (·.operator))
    simp only [operators, List.map_cons, emptied] at orderly counted same
    exact ⟨orderly.dropSentinel, trivial, counted.trans (congrArg (· + 1) same)⟩

/-- Reductions come after a primary, and no sentinel is complete for a binary operator. -/
private theorem spare_of_completes (balanced : m.IsBalanced) {top : Operator}
    (complete : m.phase.completes top = true) : m.phase.spare = 1 ∧ top ≠ .sentinel := by
  have incoming := balanced.incoming
  cases phase : m.phase with
  | due awaited =>
    rw [phase] at complete
    cases complete
  | pushing operator =>
    rw [phase] at complete incoming
    refine ⟨rfl, ?_⟩
    rintro rfl
    obtain ⟨kind, spelled⟩ := incoming
    exact absurd complete (by simp [Phase.completes, Operator.sentinel_yieldsTo_binary spelled])
  | ending =>
    rw [phase] at complete
    refine ⟨rfl, ?_⟩
    rintro rfl
    cases complete

/-- A reduction that is due finds its operands and is a move, or the target of an assignment is
wrong. -/
theorem reduces (balanced : m.IsBalanced)
    (complete : m.operators.head?.any m.phase.completes = true) :
    (∃ next, Move m next ∧
      Stacks.reduce ⟨m.operators, m.operands⟩ = .ok ⟨next.operators, next.operands⟩) ∨
    ∃ s, Stacks.reduce ⟨m.operators, m.operands⟩ = .error (.targetExpected, s) := by
  obtain ⟨phase, depth, rest, waiting, operands, reduced⟩ := m
  cases waiting with
  | nil => cases complete
  | cons top below =>
    have complete : phase.completes top.operator = true := complete
    obtain ⟨spare, operator⟩ := balanced.spare_of_completes complete
    -- The count of the operands leaves one more than all binary operators take.
    have enough : top.operator.arity ≤ operands.length := by
      have counted : operands.length
          = binaryCount (top.operator :: below.map (·.operator)) + phase.spare := balanced.counted
      rw [counted, binaryCount_cons, spare]
      omega
    cases combined : combine top.operator operands with
    | ok left =>
      have popped : Stacks.reduce ⟨top.operator :: below.map (·.operator), operands⟩
          = .ok ⟨below.map (·.operator), left⟩ := Stacks.reduce_eq_ok_iff.mpr combined
      exact .inl ⟨_, .reduce complete popped, popped⟩
    | error failure =>
      obtain ⟨error, left⟩ := failure
      obtain rfl := error_of_combine operator enough combined
      refine .inr ⟨⟨below.map (·.operator), left⟩, ?_⟩
      simp only [operators, List.map_cons, Stacks.reduce, combined]

/-- What each move keeps holds between any two moves of a run. -/
theorem run (balanced : m.IsBalanced) (moves : ReflTransGen Move m next) : next.IsBalanced := by
  induction moves with
  | refl => exact balanced
  | tail _ move ih => exact ih.move move

end Moment.IsBalanced

/-! ### Operators that are reduced once -/

def TokenKind.endsOperand : TokenKind → Bool
  | identifier | integer | real | rightParen => true
  | _ => false

/-- The operators that tokens spell, where an operand is due or not. A minus where one is due is a
prefix minus. -/
def spelledOperators (due : Bool) : List Token → List Occurrence
  | [] => []
  | token :: rest =>
    let operator? := token.kind.binaryOperator?.map fun op =>
      if due = true ∧ token.kind = .minus then .negate else op
    (operator?.map (⟨rest.length, ·⟩)).toList ++ spelledOperators (!token.kind.endsOperand) rest

section Spelled

variable {token : Token} {rest : List Token}

private theorem spelledOperators_of_none (due : Bool) (none : token.kind.binaryOperator? = none) :
    spelledOperators due (token :: rest) = spelledOperators (!token.kind.endsOperand) rest := by
  rw [spelledOperators, none]
  rfl

/-- After an operator an operand is due. -/
theorem TokenKind.endsOperand_of_binaryOperator? {kind : TokenKind} {op : Operator}
    (spelled : kind.binaryOperator? = some op) : kind.endsOperand = false := by
  cases kind <;> first | rfl | cases spelled

private theorem spelledOperators_sign (minus : token.kind = .minus) :
    spelledOperators true (token :: rest)
      = ⟨rest.length, .negate⟩ :: spelledOperators true rest := by
  rw [spelledOperators, minus]
  rfl

private theorem spelledOperators_binary {op : Operator}
    (spelled : token.kind.binaryOperator? = some op) :
    spelledOperators false (token :: rest)
      = ⟨rest.length, op⟩ :: spelledOperators true rest := by
  rw [spelledOperators, spelled, TokenKind.endsOperand_of_binaryOperator? spelled]
  rfl

/-- What is read as an operand has no operator. -/
private theorem spelledOperators_operand {negated : Bool} {depth : Nat} {tokens rest : List Token}
    {s t : Stacks}
    (reads : Step .expression ⟨.operand negated, depth, tokens, s⟩ ⟨.operator, depth, rest, t⟩) :
    spelledOperators true tokens = spelledOperators false rest := by
  cases reads with
  | letName word identifier =>
    rw [spelledOperators_of_none true (by rw [word]; rfl), word,
      spelledOperators_of_none _ (by rw [identifier]; rfl), identifier]
    rfl
  | name kind | integer kind | real kind =>
    rw [spelledOperators_of_none true (by rw [kind]; rfl), kind]
    rfl

/-- The places of the operators fall from the first to the last. -/
theorem pairwise_spelledOperators (due : Bool) (tokens : List Token) :
    (∀ operator ∈ spelledOperators due tokens, operator.behind < tokens.length) ∧
      (spelledOperators due tokens).Pairwise fun a b => b.behind < a.behind := by
  induction tokens generalizing due with
  | nil => exact ⟨nofun, .nil⟩
  | cons token rest ih =>
    obtain ⟨below, falling⟩ := ih (!token.kind.endsOperand)
    have within : ∀ operator ∈ spelledOperators (!token.kind.endsOperand) rest,
        operator.behind < (token :: rest).length :=
      fun operator member => Nat.lt_succ_of_lt (below operator member)
    cases spelled : token.kind.binaryOperator? with
    | none =>
      rw [spelledOperators_of_none due spelled]
      exact ⟨within, falling⟩
    | some op =>
      rw [spelledOperators, spelled]
      exact ⟨List.forall_mem_cons.mpr ⟨Nat.lt_succ_self _, within⟩, .cons below falling⟩

end Spelled

def Phase.awaitsOperand : Phase → Bool
  | due (.operand _) | pushing _ => true
  | _ => false

/-- The operator that is about to be pushed. -/
def Phase.incoming : Phase → List Occurrence
  | pushing incoming => [incoming]
  | _ => []

/-- The operators reduced, those that wait, and those still to be read. -/
def Moment.tally (m : Moment) : List Occurrence :=
  m.reduced ++ (m.waiting.filter (·.operator ≠ .sentinel)
    ++ (m.phase.incoming ++ spelledOperators m.phase.awaitsOperand m.rest))

/-- A move passes an operator on, and it loses and doubles none. -/
theorem Move.tally_perm {m next : Moment} (balanced : m.IsBalanced) (move : Move m next) :
    m.tally.Perm next.tally := by
  cases move with
  | operand reads =>
    simp only [Moment.tally, Phase.awaitsOperand, spelledOperators_operand (reads .start)]
    exact .refl _
  | opening opens =>
    simp only [Moment.tally, Phase.awaitsOperand]
    rw [spelledOperators_of_none true (by rw [opens]; rfl), opens]
    exact .refl _
  | sign minus =>
    simp only [Moment.tally, Phase.awaitsOperand]
    rw [spelledOperators_sign minus]
    exact .append_left _ List.perm_middle
  -- The operator that is read becomes the one that is about to be pushed.
  | incoming spelled =>
    simp only [Moment.tally, Phase.awaitsOperand]
    rw [spelledOperators_binary spelled]
    exact .refl _
  | ending none => exact .refl _
  | @reduce phase _ _ top waiting operands left _ complete popped =>
    obtain ⟨operator, _⟩ := length_of_combine (Stacks.reduce_eq_ok_iff.mp popped)
    simp only [Moment.tally]
    rw [List.filter_cons_of_pos (by simpa using operator)]
    exact List.perm_middle
  | @pushed operator _ _ top waiting _ _ waits =>
    obtain ⟨kind, spelled⟩ := balanced.incoming
    obtain ⟨_, ordinary, _, _⟩ := Operator.of_binaryOperator? spelled
    -- What was about to be pushed waits now.
    have added : (operator :: top :: waiting).filter (·.operator ≠ .sentinel)
        = operator :: (top :: waiting).filter (·.operator ≠ .sentinel) :=
      List.filter_cons_of_pos (by simpa using ordinary)
    simp only [Moment.tally, Phase.awaitsOperand, added]
    exact .append_left _ List.perm_middle
  | @closed _ _ _ scope waiting _ _ closes emptied =>
    simp only [Moment.tally, Phase.awaitsOperand]
    rw [List.filter_cons_of_neg (by simpa using emptied),
      spelledOperators_of_none false (by rw [closes]; rfl), closes]
    exact .refl _

private theorem tally_perm_of_moves {m next : Moment} (balanced : m.IsBalanced)
    (moves : ReflTransGen Move m next) : m.tally.Perm next.tally := by
  induction moves with
  | refl => exact .refl _
  | tail before move ih => exact ih.trans (move.tally_perm (balanced.run before))

/-! ### Runs of statements -/

/-- The moment at which the tree of a statement is complete. -/
def Moment.Finishes (m : Moment) (e : Expr) : Prop :=
  m.phase = .ending ∧ m.depth = 0 ∧ m.rest = [] ∧ m.operators = [.sentinel] ∧ m.operands = [e]

/-- A statement that is read as a tree is read to its end, with the tree alone on the stack. -/
theorem readOperand_of_ofTokens {tokens : List Token} {e : Expr}
    (read : Expr.ofTokens tokens = .ok (some e)) :
    readOperand .expression false 0 tokens .start = .ok ⟨[], ⟨[.sentinel], [e]⟩⟩ := by
  have nonempty : (Reading.start tokens).tokens ≠ [] := by
    intro empty
    rw [Expr.ofTokens, Reading.statement, if_pos empty] at read
    cases read
  rw [Expr.ofTokens, Reading.statement, if_neg nonempty] at read
  simp only [Reading.expression, Reading.withProgress, Reading.start] at read
  cases result : readOperand .expression false 0 tokens .start with
  | error failure =>
    rw [result] at read
    cases read
  | ok p =>
    obtain ⟨rest, s⟩ := p
    rw [result] at read
    cases rest with
    | cons token rest => cases read
    | nil =>
      simp only at read
      split at read
      · next complete =>
        split at complete
        · cases complete
          cases read
          rfl
        · cases complete
      · cases read

/-- A statement that is read comes to the end of its run with its tree. -/
theorem exists_finishes {tokens : List Token} {e : Expr}
    (read : Expr.ofTokens tokens = .ok (some e)) :
    ∃ m, ReflTransGen Move (.start tokens) m ∧ m.Finishes e := by
  obtain ⟨final, path, ends⟩ :=
    exists_path .expression ⟨.operand false, 0, tokens, .start⟩
  have result : ReaderState.read .expression ⟨.operand false, 0, tokens, .start⟩
      = .ok ⟨[], ⟨[.sentinel], [e]⟩⟩ := readOperand_of_ofTokens read
  rw [result] at ends
  have shown : (Moment.start tokens).state? = some ⟨.operand false, 0, tokens, .start⟩ := rfl
  obtain ⟨m, moves, shown⟩ := exists_moves shown path
  cases ends with
  | primary single => cases single
  | expression _ none unwound =>
    -- The last reductions belong to no step of the reader, but to its end.
    obtain ⟨phase, depth, rest, waiting, operands, reduced⟩ := m
    cases phase with
    | pushing incoming => cases shown
    | ending => cases shown
    | due awaited =>
      cases shown
      obtain ⟨top, below, done, equal, waits, reductions⟩ :=
        exists_reductions .ending 0 [] reduced unwound
      exact ⟨_, moves.trans (.head (.ending none) reductions), rfl, rfl, rfl, equal.symm, rfl⟩

/-- At the end of a run no operator waits and none is left to be read. -/
theorem reduced_perm_of_finishes {tokens : List Token} {m : Moment} {e : Expr}
    (moves : ReflTransGen Move (.start tokens) m) (finishes : m.Finishes e) :
    m.reduced.Perm (spelledOperators true tokens) := by
  have kept := tally_perm_of_moves (.start tokens) moves
  obtain ⟨phase, depth, rest, waiting, operands, reduced⟩ := m
  obtain ⟨rfl, rfl, rfl, alone, rfl⟩ := finishes
  obtain ⟨scope, rfl, sentinel⟩ := List.map_eq_singleton_iff.mp alone
  have tally : Moment.tally ⟨.ending, 0, [], [scope], [e], reduced⟩ = reduced := by
    simp [Moment.tally, Phase.incoming, spelledOperators, sentinel]
  rw [tally] at kept
  exact kept.symm

/-- Between any two moves of a run the operators are in order and the operands fit them, so that a
reduction that is due is a move or finds a wrong target, and every state of the reader is met
between two moves. At the end of a statement that is read, exactly the operators that its tokens
spell were reduced, each once. -/
theorem stacks_stay_balanced (tokens : List Token) :
    (∀ m, ReflTransGen Move (.start tokens) m →
      m.IsBalanced ∧ m.result = readOperand .expression false 0 tokens .start ∧
      (m.operators.head?.any m.phase.completes = true →
        (∃ next, Move m next ∧
          Stacks.reduce ⟨m.operators, m.operands⟩ = .ok ⟨next.operators, next.operands⟩) ∨
        ∃ s, Stacks.reduce ⟨m.operators, m.operands⟩ = .error (.targetExpected, s))) ∧
    (∀ state, ReflTransGen (Step .expression) ⟨.operand false, 0, tokens, .start⟩ state →
      ∃ m, ReflTransGen Move (.start tokens) m ∧ m.state? = some state) ∧
    ∀ e, Expr.ofTokens tokens = .ok (some e) →
      (∃ m, ReflTransGen Move (.start tokens) m ∧ m.Finishes e) ∧
      ∀ m, ReflTransGen Move (.start tokens) m → m.Finishes e →
        m.reduced.Perm (spelledOperators true tokens) ∧ (m.reduced.map (·.behind)).Nodup := by
  have balanced := Moment.IsBalanced.start tokens
  refine ⟨fun m moves => ⟨balanced.run moves, ?_, (balanced.run moves).reduces⟩,
    fun state path => ?_, fun e read => ?_⟩
  · exact (Moment.result_eq_of_moves moves).symm
  · have shown : (Moment.start tokens).state? = some ⟨.operand false, 0, tokens, .start⟩ := rfl
    exact exists_moves shown path
  · refine ⟨exists_finishes read, fun m moves finishes => ?_⟩
    have once := reduced_perm_of_finishes moves finishes
    -- Two operators of the tokens have different places, and so have two that were reduced.
    refine ⟨once, (once.map _).nodup_iff.mpr (List.pairwise_map.mpr ?_)⟩
    exact (pairwise_spelledOperators true tokens).2.imp fun falls => Nat.ne_of_gt falls

/-- The tokens of `x = -a ^ -(b - c)`. A sign waits above a power, though its rank is lower. -/
def signedDifference : List Token :=
  [⟨.identifier, "x", 1⟩, ⟨.equals, "=", 3⟩, ⟨.minus, "-", 5⟩, ⟨.identifier, "a", 6⟩,
    ⟨.caret, "^", 8⟩, ⟨.minus, "-", 10⟩, ⟨.leftParen, "(", 11⟩, ⟨.identifier, "b", 12⟩,
    ⟨.minus, "-", 14⟩, ⟨.identifier, "c", 16⟩, ⟨.rightParen, ")", 17⟩]

/-- Both signs are reduced beside the three binary operators. -/
theorem signedDifference_is_reduced_once :
    ∃ e, Expr.ofTokens signedDifference = .ok (some e) ∧
      ∃ m, ReflTransGen Move (.start signedDifference) m ∧ m.IsBalanced ∧ m.Finishes e ∧
        m.reduced.Perm [⟨9, .assign⟩, ⟨8, .negate⟩, ⟨6, .power⟩, ⟨5, .negate⟩, ⟨2, .minus⟩] := by
  have read : Expr.ofTokens signedDifference = .ok (some (.binary .assign (.identifier "x")
      (.unary .negate (.binary .power (.identifier "a")
        (.unary .negate (.binary .minus (.identifier "b") (.identifier "c"))))))) := rfl
  obtain ⟨between, _, finished⟩ := stacks_stay_balanced signedDifference
  obtain ⟨⟨m, moves, finishes⟩, once⟩ := finished _ read
  exact ⟨_, read, m, moves, (between m moves).1, finishes, (once m moves finishes).1⟩

end Calculator
