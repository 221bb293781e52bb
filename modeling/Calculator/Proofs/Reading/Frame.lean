import Calculator.Proofs.Reading.Soundness
import Calculator.Proofs.Reading.Steps

/-!
# What lies below the stacks of a run

An expression is read in a scope of its own. The sentinel that begins the scope ends every run of
reductions, and no reduction takes an operand from below, so the run is the same whatever the
stacks held before it. A primary is read above any stacks at all: its signs wait, and a parenthesis
opens such a scope.

## Main result

`reading_keeps_what_lies_below`: the outcomes of reading an expression and of reading a primary,
above any stacks.

## Proof strategy

Reductions see what lies below only when the operators or the operands run out, and report this as
a fault of the reader itself. The stacks of a run from the start of a statement fit the tokens read
(`ReaderState.Fits`), so that its reductions have no such fault, and its states can be moved
`inside` other parentheses and above other stacks, step by step. A parenthesis in a primary is such
a run followed by the closing token.
-/

namespace Calculator

section Outcomes

variable {α β : Type}

/-- The outcome of a step with another state left behind, whether or not it succeeds. -/
def mapState (f : α → β) : Except (ParseError × α) α → Except (ParseError × β) β
  | .ok state => .ok (f state)
  | .error (error, state) => .error (error, f state)

def leftBehind : Except (ParseError × α) α → α
  | .ok state => state
  | .error (_, state) => state

def IsSafe : Except (ParseError × α) α → Prop
  | .ok _ => True
  | .error (error, _) => error.IsSyntactic

end Outcomes

/-! ### Reductions above other stacks -/

private theorem combine_append {op : Operator} {operands : List Expr} (below : List Expr)
    (safe : IsSafe (combine op operands)) :
    combine op (operands ++ below) = mapState (· ++ below) (combine op operands) := by
  -- Where operands are missing the fault is none of the tokens.
  cases op with
  | sentinel => exact safe.elim
  | negate =>
    match operands with
    | [] => exact safe.elim
    | operand :: rest => rfl
  | assign =>
    match operands with
    | [] | [_] => exact safe.elim
    | right :: left :: rest =>
      cases name : left.isIdentifier with
      | true =>
        rw [List.cons_append, List.cons_append, combine_binary rfl fun _ => name,
          combine_binary rfl fun _ => name]
        rfl
      | false =>
        rw [List.cons_append, List.cons_append, combine_badTarget name, combine_badTarget name]
        rfl
  | plus | minus | multiply | divide | power =>
    match operands with
    | [] | [_] => exact safe.elim
    | right :: left :: rest => rfl

namespace Stacks

def above (s base : Stacks) : Stacks :=
  ⟨s.operators ++ base.operators, s.operands ++ base.operands⟩

variable {s : Stacks}

private theorem reduceWhile_append {isComplete : Operator → Bool} {operators : List Operator}
    {operands : List Expr} (base : Stacks)
    (safe : IsSafe (reduceWhile isComplete operators operands)) :
    reduceWhile isComplete (operators ++ base.operators) (operands ++ base.operands)
      = mapState (·.above base) (reduceWhile isComplete operators operands) := by
  induction operators generalizing operands with
  | nil =>
    -- The operators ran out, and the base would go on.
    exact safe.elim
  | cons top rest ih =>
    rw [List.cons_append]
    cases done : isComplete top with
    | false =>
      rw [reduceWhile_stop done, reduceWhile_stop done]
      rfl
    | true =>
      rw [reduceWhile, if_pos done] at safe ⊢
      rw [reduceWhile, if_pos done]
      cases combined : combine top operands with
      | error failure =>
        rw [combined] at safe
        rw [combine_append base.operands (combined ▸ safe), combined]
        rfl
      | ok left =>
        rw [combined] at safe
        rw [combine_append base.operands (combined ▸ trivial), combined]
        exact ih safe

theorem push_above {op : Operator} (base : Stacks) (safe : IsSafe (s.push op)) :
    (s.above base).push op = mapState (·.above base) (s.push op) := by
  rw [push] at safe
  have settled : IsSafe (reduceWhile (·.yieldsTo op) s.operators s.operands) := by
    cases reduced : reduceWhile (·.yieldsTo op) s.operators s.operands with
    | ok t => trivial
    | error failure =>
      rw [reduced] at safe
      exact safe
  rw [push, push, above, reduceWhile_append base settled]
  cases reduceWhile (·.yieldsTo op) s.operators s.operands with
  | ok t => rfl
  | error failure => rfl

theorem unwind_above (base : Stacks) (safe : IsSafe s.unwind) :
    (s.above base).unwind = mapState (·.above base) s.unwind :=
  reduceWhile_append base safe

def IsRooted (s : Stacks) : Prop :=
  ∃ inner, s.operators = inner ++ [.sentinel]

/-- Reductions that no sentinel is complete for leave the first one where it is. -/
private theorem isRooted_reduceWhile {isComplete : Operator → Bool} {operators : List Operator}
    {operands : List Expr} (stops : isComplete .sentinel = false)
    (rooted : IsRooted ⟨operators, operands⟩) :
    IsRooted (leftBehind (reduceWhile isComplete operators operands)) := by
  induction operators generalizing operands with
  | nil =>
    obtain ⟨inner, equal⟩ := rooted
    exact absurd equal (by simp)
  | cons top rest ih =>
    cases done : isComplete top with
    | false =>
      rw [reduceWhile_stop done]
      exact rooted
    | true =>
      -- The first sentinel is not the top one, which is complete.
      have below : ∃ inner, rest = inner ++ [.sentinel] := by
        obtain ⟨inner, equal⟩ := rooted
        cases inner with
        | nil =>
          obtain ⟨rfl, rfl⟩ : top = .sentinel ∧ rest = [] := by simpa using equal
          exact absurd (done.symm.trans stops) (by decide)
        | cons _ inner => exact ⟨inner, by simpa using congrArg List.tail equal⟩
      rw [reduceWhile, if_pos done]
      cases combine top operands with
      | error failure => exact below
      | ok left => exact ih below

private theorem isRooted_unwind (rooted : s.IsRooted) : IsRooted (leftBehind s.unwind) :=
  isRooted_reduceWhile rfl rooted

private theorem isRooted_push {op : Operator} (stops : Operator.sentinel.yieldsTo op = false)
    (rooted : s.IsRooted) : IsRooted (leftBehind (s.push op)) := by
  have left : IsRooted (leftBehind (reduceWhile (·.yieldsTo op) s.operators s.operands)) :=
    isRooted_reduceWhile stops rooted
  rw [push]
  cases reduced : reduceWhile (·.yieldsTo op) s.operators s.operands with
  | error failure =>
    rw [reduced] at left
    exact left
  | ok t =>
    rw [reduced] at left
    obtain ⟨inner, equal⟩ := left
    exact ⟨op :: inner, congrArg (op :: ·) equal⟩

end Stacks

/-! ### Runs inside parentheses -/

private theorem Awaits.isRooted {depth : Nat} {read : List Token} {operators : List Operator}
    {operands : List Expr} (awaits : Awaits depth read operators operands) :
    ∃ inner, operators = inner ++ [.sentinel] := by
  induction awaits with
  | start => exact ⟨[], rfl⟩
  | opened _ _ ih | negated _ _ ih | pushed _ _ _ _ ih =>
    obtain ⟨inner, equal⟩ := ih
    exact ⟨_ :: inner, congrArg (_ :: ·) equal⟩

namespace AfterPrimary

variable {depth : Nat} {read : List Token} {s : Stacks} {token : Token}

theorem push_above {op : Operator} (after : AfterPrimary depth read s) (base : Stacks)
    (binary : token.kind.binaryOperator? = some op) :
    (s.above base).push op = mapState (·.above base) (s.push op) := by
  refine Stacks.push_above base ?_
  cases pushed : s.push op with
  | ok t => trivial
  | error failure => exact after.push_error binary pushed

theorem unwind_above (after : AfterPrimary depth read s) (base : Stacks) :
    (s.above base).unwind = mapState (·.above base) s.unwind := by
  refine Stacks.unwind_above base ?_
  cases unwound : s.unwind with
  | ok t => trivial
  | error failure => exact after.unwind_error unwound

end AfterPrimary

namespace ReaderState

/-- The state inside more parentheses and above the stacks of what stands before them. -/
def inside (state : ReaderState) (outer : Nat) (base : Stacks) : ReaderState :=
  ⟨state.due, outer + state.depth, state.rest, state.stacks.above base⟩

private theorem Fits.isRooted {read : List Token} {state : ReaderState} (fits : state.Fits read) :
    state.stacks.IsRooted := by
  obtain ⟨due, depth, rest, s⟩ := state
  cases due with
  | operand negated => exact Awaits.isRooted fits.1
  | operator =>
    obtain ⟨before, spelled, top, below, e, operands, rfl, awaits, _⟩ := fits
    exact awaits.isRooted

variable {extent : Extent} {outer : Nat} {state next final : ReaderState} {read : List Token}

/-- A step of an expression is one inside parentheses, too. -/
theorem Step.inside (base : Stacks) (within : ¬(extent = .primary ∧ outer = 0))
    (step : Step .expression state next) (fits : state.Fits read) :
    Step extent (state.inside outer base) (next.inside outer base) := by
  have open_within {depth : Nat} : ¬(extent = .primary ∧ outer + depth = 0) :=
    fun ⟨single, outside⟩ => within ⟨single, by omega⟩
  cases step with
  | letName word identifier => exact .letName word identifier
  | name identifier => exact .name identifier
  | integer kind value range => exact .integer kind value range
  | real kind value => exact .real kind value
  | opening opens => exact .opening opens
  | sign minus => exact .sign minus
  | binary _ spelled pushed =>
    refine .binary open_within spelled ?_
    rw [AfterPrimary.push_above fits base spelled, pushed]
    rfl
  | @closing _ _ _ s t closes unwound =>
    have unwound_above : (s.above base).unwind = .ok (t.above base) := by
      rw [AfterPrimary.unwind_above fits, unwound]
      rfl
    -- The sentinel that is dropped stands above the base.
    obtain ⟨below, equal⟩ := Stacks.sentinel_of_unwind unwound
    have dropped : (t.above base).dropOperator = t.dropOperator.above base := by
      simp [Stacks.dropOperator, Stacks.above, equal]
    simp only [ReaderState.inside, ← dropped]
    exact .closing closes unwound_above

/-- Where an expression fails, it fails inside parentheses, too. -/
theorem Ends.inside {error : ParseError} {p : Progress} (base : Stacks)
    (within : ¬(extent = .primary ∧ outer = 0)) (ends : Ends .expression state (.error (error, p)))
    (fits : state.Fits read) :
    Ends extent (state.inside outer base) (.error (error, ⟨p.rest, p.stacks.above base⟩)) := by
  have open_within {depth : Nat} : ¬(extent = .primary ∧ outer + depth = 0) :=
    fun ⟨single, outside⟩ => within ⟨single, by omega⟩
  cases ends with
  | operandMissing => exact .operandMissing
  | nameMissing word => exact .nameMissing word
  | nameExpected word other => exact .nameExpected word other
  | tooLarge kind value large => exact .tooLarge kind value large
  | noNumeral literal => exact .noNumeral literal
  | noOperand other => exact .noOperand other
  | pushFails _ spelled failed =>
    refine .pushFails open_within spelled ?_
    rw [AfterPrimary.push_above fits base spelled, failed]
    rfl
  | unwindFails _ none failed =>
    refine .unwindFails open_within none ?_
    rw [AfterPrimary.unwind_above fits, failed]
    rfl
  | closingMissing unwound =>
    refine .closingMissing ?_
    rw [AfterPrimary.unwind_above fits, unwound]
    rfl
  | closingExpected none other unwound =>
    refine .closingExpected none other ?_
    rw [AfterPrimary.unwind_above fits, unwound]
    rfl

/-- A run that fails leaves its first sentinel. -/
theorem Ends.isRooted {error : ParseError} {p : Progress}
    (ends : Ends extent state (.error (error, p))) (rooted : state.stacks.IsRooted) :
    p.stacks.IsRooted := by
  cases ends with
  | operandMissing | nameMissing | nameExpected | tooLarge | noNumeral | noOperand =>
    exact rooted
  | pushFails _ spelled failed =>
    have left := Stacks.isRooted_push (Operator.sentinel_yieldsTo_binary spelled) rooted
    rw [failed] at left
    exact left
  | unwindFails _ _ result | closingMissing result | closingExpected _ _ result =>
    have left := Stacks.isRooted_unwind rooted
    rw [result] at left
    exact left

/-- The state before the first token of an expression in a scope of its own. -/
def begin (tokens : List Token) : ReaderState :=
  ⟨.operand false, 0, tokens, .start⟩

/-- The reading of an expression comes to the state, and so does the reading of the same tokens
inside parentheses and above other stacks. -/
structure IsMirrored (tokens read : List Token) (state : ReaderState) : Prop where
  fits : state.Fits read
  mirrors : ∀ extent outer base, ¬(extent = Extent.primary ∧ outer = 0) →
    ((begin tokens).inside outer base).read extent = (state.inside outer base).read extent

private theorem exists_end_isMirrored (tokens : List Token) :
    ∃ read final, IsMirrored tokens read final ∧
      Ends .expression final (readOperand .expression false 0 tokens .start) := by
  have start : IsMirrored tokens [] (begin tokens) := ⟨⟨.start, rfl⟩, fun _ _ _ _ => rfl⟩
  obtain ⟨read, final, _, mirrored, ends⟩ :=
    exists_end (begin tokens) start fun step mirrored => by
      obtain ⟨consumed, split, fits⟩ := step.fits mirrored.fits
      refine ⟨consumed, split, fits, fun extent outer base within => ?_⟩
      exact (mirrored.mirrors extent outer base within).trans
        (step.inside base within mirrored.fits).read_eq
  exact ⟨read, final, mirrored, ends⟩

end ReaderState

open ReaderState

variable {tokens rest : List Token} {s : Stacks}

/-- An expression that is refused is refused with the same fault inside parentheses and above
other stacks, which it leaves as they are. -/
private theorem refused_inside {error : ParseError}
    (refused : readOperand .expression false 0 tokens .start = .error (error, ⟨rest, s⟩)) :
    s.IsRooted ∧ ∀ extent outer base, ¬(extent = Extent.primary ∧ outer = 0) →
      readOperand extent false outer tokens (Stacks.start.above base)
        = .error (error, ⟨rest, s.above base⟩) := by
  obtain ⟨read, final, ⟨fits, equal⟩, ends⟩ := exists_end_isMirrored tokens
  rw [refused] at ends
  exact ⟨ends.isRooted fits.isRooted, fun extent outer base within =>
    (equal extent outer base within).trans (ends.inside base within fits).read_eq⟩

/-- An expression that is read is one operand in its scope, inside parentheses and above other
stacks, too. What follows it is no operator. -/
private theorem read_inside
    (result : readOperand .expression false 0 tokens .start = .ok ⟨rest, s⟩) :
    NoOperator rest ∧ ∃ e t, s = ⟨[.sentinel], [e]⟩ ∧
      (∀ base, (Stacks.above t base).unwind = .ok (s.above base)) ∧
      ∀ extent outer base, ¬(extent = Extent.primary ∧ outer = 0) →
        readOperand extent false outer tokens (Stacks.start.above base)
          = readOperator extent outer rest (t.above base) := by
  obtain ⟨read, final, ⟨fits, equal⟩, ends⟩ := exists_end_isMirrored tokens
  rw [result] at ends
  cases ends with
  | primary single => cases single
  | @expression _ t _ _ none unwound =>
    obtain ⟨e, rfl, _⟩ := AfterPrimary.unwind_zero fits unwound
    refine ⟨none, e, t, rfl, fun base => ?_, equal⟩
    rw [AfterPrimary.unwind_above fits, unwound]
    rfl

/-! ### Expressions and primaries above other stacks -/

/-- A run comes to one operand above operators that wait, or to a fault, and all of it stands
above the stacks that the run starts from. -/
def AddsOperand (waiting : List Operator)
    (run : Stacks → Except (ParseError × Progress) Progress) : Prop :=
  (∃ rest e, ∀ base, run base = .ok ⟨rest, Stacks.above ⟨waiting, [e]⟩ base⟩) ∨
    ∃ error rest left, ∀ base, run base = .error (error, ⟨rest, Stacks.above left base⟩)

theorem AddsOperand.addOperator {waiting : List Operator}
    {run : Stacks → Except (ParseError × Progress) Progress} (adds : AddsOperand waiting run)
    (op : Operator) :
    AddsOperand (waiting ++ [op]) fun base => run (base.addOperator op) := by
  have above_addOperator (left base : Stacks) : left.above (base.addOperator op)
      = Stacks.above ⟨left.operators ++ [op], left.operands⟩ base := by
    simp [Stacks.above, Stacks.addOperator]
  rcases adds with ⟨rest, e, equal⟩ | ⟨error, rest, left, equal⟩
  · exact .inl ⟨rest, e, fun base => by simp only [equal, above_addOperator]⟩
  · exact .inr ⟨error, rest, ⟨left.operators ++ [op], left.operands⟩,
      fun base => by simp only [equal, above_addOperator]⟩

/-- What stands in parentheses is read above any stacks. -/
private theorem addsOperand_parentheses (tokens : List Token) :
    AddsOperand [] fun base =>
      readOperand .primary false 1 tokens (base.addOperator .sentinel) := by
  cases result : readOperand .expression false 0 tokens .start with
  | error failure =>
    obtain ⟨error, rest, left⟩ := failure
    obtain ⟨_, equal⟩ := refused_inside result
    exact .inr ⟨error, rest, left, fun base => equal .primary 1 base nofun⟩
  | ok p =>
    obtain ⟨rest, s⟩ := p
    obtain ⟨none, e, t, rfl, unwound, equal⟩ := read_inside result
    have inner (base : Stacks) := equal .primary 1 base nofun
    -- The expression is over, and a closing parenthesis has to follow.
    cases rest with
    | nil =>
      refine .inr ⟨.closingMissing, [], ⟨[.sentinel], [e]⟩, fun base => ?_⟩
      exact (inner base).trans (Ends.closingMissing (unwound base)).read_eq
    | cons token rest =>
      by_cases closes : token.kind = .rightParen
      · refine .inl ⟨rest, e, fun base => (inner base).trans ?_⟩
        exact (Step.closing closes (unwound base)).read_eq.trans (Ends.primary rfl).read_eq
      · refine .inr ⟨.closingExpected token, token :: rest, ⟨[.sentinel], [e]⟩, fun base => ?_⟩
        exact (inner base).trans
          (Ends.closingExpected (none token rfl) closes (unwound base)).read_eq

def leadingSigns (tokens : List Token) : List Token :=
  tokens.takeWhile (·.kind = .minus)

section Primary

variable {negated : Bool}

private theorem addsOperand_of_step {e : Expr} (plain : leadingSigns tokens = [])
    (step : ∀ s, Step .primary ⟨.operand negated, 0, tokens, s⟩
      ⟨.operator, 0, rest, s.addOperand e⟩) :
    AddsOperand (.replicate (leadingSigns tokens).length .negate)
      (readOperand .primary negated 0 tokens) := by
  rw [plain]
  exact .inl ⟨rest, e, fun base => (step base).read_eq.trans (Ends.primary rfl).read_eq⟩

private theorem addsOperand_of_ends {waiting : List Operator} {error : ParseError}
    (ends : ∀ s, Ends .primary ⟨.operand negated, 0, tokens, s⟩ (.error (error, ⟨rest, s⟩))) :
    AddsOperand waiting (readOperand .primary negated 0 tokens) :=
  .inr ⟨error, rest, ⟨[], []⟩, fun base => (ends base).read_eq⟩

/-- A primary is read above any stacks, and each sign in front of it waits. The induction is on
the tokens, for the signs. -/
theorem addsOperand_primary (negated : Bool) (tokens : List Token) :
    AddsOperand (.replicate (leadingSigns tokens).length .negate)
      (readOperand .primary negated 0 tokens) := by
  induction tokens generalizing negated with
  | nil => exact addsOperand_of_ends fun _ => .operandMissing
  | cons token rest ih =>
    rcases step_or_ends .primary ⟨.operand negated, 0, token :: rest, .start⟩ with
      ⟨next, step⟩ | ends
    · cases step with
      | letName word identifier =>
        exact addsOperand_of_step (by simp [leadingSigns, word]) fun _ => .letName word identifier
      | name identifier =>
        exact addsOperand_of_step (by simp [leadingSigns, identifier]) fun _ => .name identifier
      | integer kind value range =>
        exact addsOperand_of_step (by simp [leadingSigns, kind]) fun _ => .integer kind value range
      | real kind value =>
        exact addsOperand_of_step (by simp [leadingSigns, kind]) fun _ => .real kind value
      | opening opens =>
        have plain : leadingSigns (token :: rest) = [] := by simp [leadingSigns, opens]
        have opened : readOperand .primary negated 0 (token :: rest)
            = fun base => readOperand .primary false 1 rest (base.addOperator .sentinel) :=
          funext fun _ => (Step.opening opens).read_eq
        rw [plain, opened]
        exact addsOperand_parentheses rest
      | sign minus =>
        have more : leadingSigns (token :: rest) = token :: leadingSigns rest := by
          simp [leadingSigns, minus]
        have signed : readOperand .primary negated 0 (token :: rest)
            = fun base => readOperand .primary true 0 rest (base.addOperator .negate) :=
          funext fun _ => (Step.sign minus).read_eq
        rw [more, List.length_cons, List.replicate_succ', signed]
        exact (ih true).addOperator .negate
    · -- The token tells how the run ends, not what the run computes.
      generalize ReaderState.read .primary ⟨.operand negated, 0, token :: rest, .start⟩
        = result at ends
      cases ends with
      | nameMissing word => exact addsOperand_of_ends fun _ => .nameMissing word
      | nameExpected word other => exact addsOperand_of_ends fun _ => .nameExpected word other
      | tooLarge kind value large => exact addsOperand_of_ends fun _ => .tooLarge kind value large
      | noNumeral literal => exact addsOperand_of_ends fun _ => .noNumeral literal
      | noOperand other => exact addsOperand_of_ends fun _ => .noOperand other

end Primary

/-- Reading does not depend on what lies below it on the stacks. An expression that is read above a
sentinel comes to the tree of a run with nothing below, or to its fault, at the same token. A
primary is read above any stacks, where each sign in front of it waits. Both leave what was there
before them as it is, also where they fail. -/
theorem reading_keeps_what_lies_below (tokens rest : List Token) (below : List Operator)
    (operands : List Expr) :
    ((∃ left e,
        Reading.expression ⟨tokens, rest, .start⟩ = .ok ⟨tokens, left, ⟨[.sentinel], [e]⟩⟩ ∧
        Reading.expression ⟨tokens, rest, ⟨.sentinel :: below, operands⟩⟩
          = .ok ⟨tokens, left, ⟨.sentinel :: below, e :: operands⟩⟩) ∨
      ∃ error left inner trees,
        Reading.expression ⟨tokens, rest, .start⟩
          = .error (error, ⟨tokens, left, ⟨inner ++ [.sentinel], trees⟩⟩) ∧
        Reading.expression ⟨tokens, rest, ⟨.sentinel :: below, operands⟩⟩
          = .error (error, ⟨tokens, left, ⟨inner ++ .sentinel :: below, trees ++ operands⟩⟩)) ∧
    ∀ negated,
      (∃ left e, ∀ operators operands,
        Reading.primary ⟨tokens, rest, ⟨operators, operands⟩⟩ negated
          = .ok ⟨tokens, left, ⟨List.replicate (leadingSigns rest).length .negate ++ operators,
              e :: operands⟩⟩) ∨
      ∃ error left inner trees, ∀ operators operands,
        Reading.primary ⟨tokens, rest, ⟨operators, operands⟩⟩ negated
          = .error (error, ⟨tokens, left, ⟨inner ++ operators, trees ++ operands⟩⟩) := by
  constructor
  · cases result : readOperand .expression false 0 rest .start with
    | error failure =>
      obtain ⟨error, left, operators, trees⟩ := failure
      obtain ⟨⟨inner, rooted⟩, equal⟩ := refused_inside result
      obtain rfl : operators = inner ++ [.sentinel] := rooted
      refine .inr ⟨error, left, inner, trees, congrArg _ result, ?_⟩
      -- The sentinel of the fresh run is the one of the scope; the rest goes below it.
      rw [List.append_cons]
      exact congrArg _ (equal .expression 0 ⟨below, operands⟩ nofun)
    | ok p =>
      obtain ⟨left, s⟩ := p
      obtain ⟨none, e, t, rfl, unwound, equal⟩ := read_inside result
      have there := (equal .expression 0 ⟨below, operands⟩ nofun).trans
        (Ends.expression rfl none (unwound ⟨below, operands⟩)).read_eq
      exact .inl ⟨left, e, congrArg _ result, congrArg (Reading.withProgress _) there⟩
  · intro negated
    rcases addsOperand_primary negated rest with ⟨left, e, equal⟩ | ⟨error, left, s, equal⟩
    · exact .inl ⟨left, e, fun operators operands => congrArg _ (equal ⟨operators, operands⟩)⟩
    · exact .inr ⟨error, left, s.operators, s.operands,
        fun operators operands => congrArg _ (equal ⟨operators, operands⟩)⟩

end Calculator
