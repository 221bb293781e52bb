import Calculator.Proofs.Reading.Steps
import Calculator.Proofs.Reading.Reduction

/-!
# Moves of the reader

A step of the reader ends with all the reductions that an operator or the end of a scope brings
about. A move is smaller: it reads one operand, opens or closes a scope, takes in one operator, or
reduces one. Between two moves the stacks are seen as each reduction finds and leaves them. Each
operator that waits keeps its place in the token list, and the operators reduced so far are noted in
their order.

## Main results

- `Move.result_eq`: a move leaves the result of the run as it is.
- `exists_moves`: a path of steps is a path of moves.
-/

namespace Calculator

open Relation ReaderState

/-- An operator of a token list, placed by the number of tokens behind it. -/
structure Occurrence where
  behind : Nat
  operator : Operator
  deriving DecidableEq, Repr

/-- What goes on. A primary begins where an operand is due and has ended where an operator is due.
An operator is pushed after the reductions of those that are complete before it, and at its end a
scope is reduced to one operand. -/
inductive Phase where
  | due (due : Due)
  | pushing (incoming : Occurrence)
  | ending
  deriving DecidableEq, Repr

def Phase.completes : Phase → Operator → Bool
  | due _, _ => false
  | pushing incoming, top => top.yieldsTo incoming.operator
  | ending, top => top != .sentinel

def Phase.resume (depth : Nat) (tokens : List Token) (s : Stacks) :
    Phase → Except (ParseError × Progress) Progress
  | due awaited => ReaderState.read .expression ⟨awaited, depth, tokens, s⟩
  | pushing incoming => readOperand .expression false depth tokens (s.addOperator incoming.operator)
  | ending =>
    match depth, tokens with
    | 0, tokens => .ok ⟨tokens, s⟩
    | _ + 1, [] => .error (.closingMissing, ⟨[], s⟩)
    | depth + 1, token :: rest =>
      if token.kind = .rightParen then readOperator .expression depth rest s.dropOperator
      else .error (.closingExpected token, ⟨token :: rest, s⟩)

/-- The reader between two moves. -/
structure Moment where
  phase : Phase
  depth : Nat
  rest : List Token
  waiting : List Occurrence
  operands : List Expr
  reduced : List Occurrence
  deriving DecidableEq, Repr

namespace Moment

def operators (m : Moment) : List Operator :=
  m.waiting.map (·.operator)

def start (tokens : List Token) : Moment :=
  ⟨.due (.operand false), 0, tokens, [⟨tokens.length, .sentinel⟩], [], []⟩

/-- The state of the reader, where no reduction is under way. -/
def state? (m : Moment) : Option ReaderState :=
  match m.phase with
  | .due due => some ⟨due, m.depth, m.rest, ⟨m.operators, m.operands⟩⟩
  | _ => none

def result (m : Moment) : Except (ParseError × Progress) Progress :=
  match m.phase with
  | .due due => ReaderState.read .expression ⟨due, m.depth, m.rest, ⟨m.operators, m.operands⟩⟩
  | .pushing _ | .ending =>
    match Stacks.reduceWhile m.phase.completes m.operators m.operands with
    | .ok s => m.phase.resume m.depth m.rest s
    | .error (error, s) => .error (error, ⟨m.rest, s⟩)

end Moment

/-- The reader goes from a moment to the next one. An operator that is read gets its place, and one
that is reduced is noted. -/
inductive Move : Moment → Moment → Prop
  | operand {negated : Bool} {depth : Nat} {tokens rest : List Token} {waiting : List Occurrence}
      {operands : List Expr} {reduced : List Occurrence} {e : Expr}
      (reads : ∀ s, Step .expression ⟨.operand negated, depth, tokens, s⟩
        ⟨.operator, depth, rest, s.addOperand e⟩) :
      Move ⟨.due (.operand negated), depth, tokens, waiting, operands, reduced⟩
        ⟨.due .operator, depth, rest, waiting, e :: operands, reduced⟩
  | opening {negated : Bool} {depth : Nat} {token : Token} {rest : List Token}
      {waiting : List Occurrence} {operands : List Expr} {reduced : List Occurrence}
      (opens : token.kind = .leftParen) :
      Move ⟨.due (.operand negated), depth, token :: rest, waiting, operands, reduced⟩
        ⟨.due (.operand false), depth + 1, rest, ⟨rest.length, .sentinel⟩ :: waiting, operands,
          reduced⟩
  | sign {negated : Bool} {depth : Nat} {token : Token} {rest : List Token}
      {waiting : List Occurrence} {operands : List Expr} {reduced : List Occurrence}
      (minus : token.kind = .minus) :
      Move ⟨.due (.operand negated), depth, token :: rest, waiting, operands, reduced⟩
        ⟨.due (.operand true), depth, rest, ⟨rest.length, .negate⟩ :: waiting, operands, reduced⟩
  | incoming {depth : Nat} {token : Token} {rest : List Token} {waiting : List Occurrence}
      {operands : List Expr} {reduced : List Occurrence} {op : Operator}
      (spelled : token.kind.binaryOperator? = some op) :
      Move ⟨.due .operator, depth, token :: rest, waiting, operands, reduced⟩
        ⟨.pushing ⟨rest.length, op⟩, depth, rest, waiting, operands, reduced⟩
  | ending {depth : Nat} {tokens : List Token} {waiting : List Occurrence}
      {operands : List Expr} {reduced : List Occurrence} (none : NoOperator tokens) :
      Move ⟨.due .operator, depth, tokens, waiting, operands, reduced⟩
        ⟨.ending, depth, tokens, waiting, operands, reduced⟩
  | reduce {phase : Phase} {depth : Nat} {rest : List Token} {top : Occurrence}
      {waiting : List Occurrence} {operands left : List Expr} {reduced : List Occurrence}
      (complete : phase.completes top.operator = true)
      (popped : Stacks.reduce ⟨top.operator :: waiting.map (·.operator), operands⟩
        = .ok ⟨waiting.map (·.operator), left⟩) :
      Move ⟨phase, depth, rest, top :: waiting, operands, reduced⟩
        ⟨phase, depth, rest, waiting, left, top :: reduced⟩
  | pushed {incoming : Occurrence} {depth : Nat} {rest : List Token} {top : Occurrence}
      {waiting : List Occurrence} {operands : List Expr} {reduced : List Occurrence}
      (waits : top.operator.yieldsTo incoming.operator = false) :
      Move ⟨.pushing incoming, depth, rest, top :: waiting, operands, reduced⟩
        ⟨.due (.operand false), depth, rest, incoming :: top :: waiting, operands, reduced⟩
  | closed {depth : Nat} {token : Token} {rest : List Token} {scope : Occurrence}
      {waiting : List Occurrence} {operands : List Expr} {reduced : List Occurrence}
      (closes : token.kind = .rightParen) (emptied : scope.operator = .sentinel) :
      Move ⟨.ending, depth + 1, token :: rest, scope :: waiting, operands, reduced⟩
        ⟨.due .operator, depth, rest, waiting, operands, reduced⟩

/-! ### A move is part of the run -/

theorem Stacks.reduce_eq_ok_iff {op : Operator} {below : List Operator}
    {operands left : List Expr} :
    reduce ⟨op :: below, operands⟩ = .ok ⟨below, left⟩ ↔ combine op operands = .ok left := by
  simp only [reduce]
  cases combine op operands with
  | ok trees => simp
  | error failure => simp

/-- A move leaves the result of the run as it is. -/
theorem Move.result_eq {m next : Moment} (move : Move m next) : m.result = next.result := by
  cases move with
  | operand reads => exact (reads _).read_eq
  | opening opens => exact (Step.opening opens).read_eq
  | sign minus => exact (Step.sign minus).read_eq
  | @incoming depth token rest waiting operands reduced op spelled =>
    simp only [Moment.result, ReaderState.read]
    rw [readOperator.eq_def]
    simp only [reduceCtorEq, false_and, if_false, spelled, Stacks.push]
    have same : Phase.completes (.pushing ⟨rest.length, op⟩) = (·.yieldsTo op) := rfl
    simp only [Moment.operators, same]
    cases Stacks.reduceWhile (·.yieldsTo op) (waiting.map (·.operator)) operands with
    | ok s => rfl
    | error failure => rfl
  | @ending depth tokens waiting operands reduced none =>
    -- With a token left or not, the scope is unwound before anything else is looked at.
    have same : Phase.completes .ending = (· != .sentinel) := rfl
    simp only [Moment.result, ReaderState.read, Moment.operators, same]
    rw [readOperator.eq_def]
    simp only [reduceCtorEq, false_and, if_false, Stacks.unwind]
    cases tokens with
    | nil =>
      cases Stacks.reduceWhile (· != .sentinel) (waiting.map (·.operator)) operands with
      | ok s => cases depth <;> rfl
      | error failure => rfl
    | cons token rest =>
      simp only [none token rfl]
      cases Stacks.reduceWhile (· != .sentinel) (waiting.map (·.operator)) operands with
      | ok s => cases depth <;> rfl
      | error failure => rfl
  | @reduce phase _ _ top waiting operands left _ complete popped =>
    have combined := Stacks.reduce_eq_ok_iff.mp popped
    have once :
        Stacks.reduceWhile phase.completes (top.operator :: waiting.map (·.operator)) operands
          = Stacks.reduceWhile phase.completes (waiting.map (·.operator)) left := by
      rw [Stacks.reduceWhile, if_pos complete, combined]
    cases phase with
    | due _ => cases complete
    | pushing incoming | ending => simp only [Moment.result, Moment.operators, List.map_cons, once]
  | @pushed incoming _ _ top _ _ _ waits =>
    have stops : Phase.completes (.pushing incoming) top.operator = false := waits
    simp only [Moment.result, Moment.operators, List.map_cons]
    rw [Stacks.reduceWhile_stop stops]
    rfl
  | @closed depth token rest scope waiting operands reduced closes emptied =>
    -- Nothing is left to reduce where the sentinel of the scope is on top.
    have stops : Phase.completes .ending scope.operator = false := by
      rw [emptied]
      rfl
    simp only [Moment.result, Moment.operators, List.map_cons]
    rw [Stacks.reduceWhile_stop stops]
    simp only [Phase.resume, if_pos closes]
    rfl

theorem Moment.result_eq_of_moves {m next : Moment} (moves : ReflTransGen Move m next) :
    m.result = next.result := by
  induction moves with
  | refl => rfl
  | tail _ move ih => exact ih.trans move.result_eq

/-! ### The run is made of moves -/

/-- Reductions that succeed are moves, up to an operator that is not complete. -/
theorem exists_reductions (phase : Phase) (depth : Nat) (rest : List Token)
    {waiting : List Occurrence} {operands : List Expr} (reduced : List Occurrence) {s : Stacks}
    (reductions : Stacks.reduceWhile phase.completes (waiting.map (·.operator)) operands = .ok s) :
    ∃ top below done, s.operators = top.operator :: below.map (·.operator) ∧
      phase.completes top.operator = false ∧
      ReflTransGen Move ⟨phase, depth, rest, waiting, operands, reduced⟩
        ⟨phase, depth, rest, top :: below, s.operands, done⟩ := by
  -- On the operators that wait; what is reduced already grows along the way.
  induction waiting generalizing operands reduced with
  | nil => cases reductions
  | cons top below ih =>
    rw [List.map_cons] at reductions
    cases complete : phase.completes top.operator with
    | false =>
      rw [Stacks.reduceWhile_stop complete] at reductions
      cases reductions
      exact ⟨top, below, reduced, rfl, complete, .refl⟩
    | true =>
      rw [Stacks.reduceWhile, if_pos complete] at reductions
      cases combined : combine top.operator operands with
      | error failure =>
        rw [combined] at reductions
        cases reductions
      | ok left =>
        rw [combined] at reductions
        obtain ⟨last, others, done, equal, waits, moves⟩ := ih (top :: reduced) reductions
        refine ⟨last, others, done, equal, waits, .head (.reduce complete ?_) moves⟩
        exact Stacks.reduce_eq_ok_iff.mpr combined

private theorem Stacks.exists_of_push {s t : Stacks} {op : Operator} (pushed : s.push op = .ok t) :
    ∃ u, reduceWhile (·.yieldsTo op) s.operators s.operands = .ok u ∧ t = u.addOperator op := by
  rw [push] at pushed
  cases reductions : reduceWhile (·.yieldsTo op) s.operators s.operands with
  | error failure =>
    rw [reductions] at pushed
    cases pushed
  | ok u =>
    rw [reductions] at pushed
    cases pushed
    exact ⟨u, rfl, rfl⟩

/-- A step of the reader is made of moves. -/
theorem exists_moves_of_step {state next : ReaderState} {m : Moment}
    (step : Step .expression state next) (shown : m.state? = some state) :
    ∃ m', ReflTransGen Move m m' ∧ m'.state? = some next := by
  obtain ⟨phase, depth, rest, waiting, operands, reduced⟩ := m
  cases phase with
  | pushing incoming => cases shown
  | ending => cases shown
  | due awaited =>
    cases shown
    -- All steps are one move each, but for those before which operators are reduced.
    cases step with
    | letName word identifier =>
      exact ⟨_, .single (.operand fun _ => .letName word identifier), rfl⟩
    | name identifier => exact ⟨_, .single (.operand fun _ => .name identifier), rfl⟩
    | integer kind value range =>
      exact ⟨_, .single (.operand fun _ => .integer kind value range), rfl⟩
    | real kind value => exact ⟨_, .single (.operand fun _ => .real kind value), rfl⟩
    | opening opens => exact ⟨_, .single (.opening opens), rfl⟩
    | sign minus => exact ⟨_, .single (.sign minus), rfl⟩
    | @binary _ token rest _ _ op _ spelled pushed =>
      obtain ⟨s, reductions, rfl⟩ := Stacks.exists_of_push pushed
      obtain ⟨top, below, done, equal, waits, moves⟩ :=
        exists_reductions (.pushing ⟨rest.length, op⟩) depth rest reduced reductions
      refine ⟨_, .head (.incoming spelled) (moves.tail (.pushed waits)), ?_⟩
      simp only [Moment.state?, Moment.operators, List.map_cons, Stacks.addOperator, equal]
    | @closing depth token rest _ s closes unwound =>
      have none : NoOperator (token :: rest) := by
        simp [NoOperator, closes, TokenKind.binaryOperator?]
      obtain ⟨scope, below, done, equal, waits, moves⟩ :=
        exists_reductions .ending (depth + 1) (token :: rest) reduced unwound
      have emptied : scope.operator = .sentinel := by simpa [Phase.completes] using waits
      refine ⟨_, .head (.ending none) (moves.tail (.closed closes emptied)), ?_⟩
      simp only [Moment.state?, Moment.operators, Stacks.dropOperator, equal, List.tail_cons]

/-- A path of steps is a path of moves. -/
theorem exists_moves {state next : ReaderState} {m : Moment} (shown : m.state? = some state)
    (path : ReflTransGen (Step .expression) state next) :
    ∃ m', ReflTransGen Move m m' ∧ m'.state? = some next := by
  induction path with
  | refl => exact ⟨m, .refl, shown⟩
  | tail _ step ih =>
    obtain ⟨middle, before, shown⟩ := ih
    obtain ⟨m', after, shown⟩ := exists_moves_of_step step shown
    exact ⟨m', before.trans after, shown⟩

end Calculator
