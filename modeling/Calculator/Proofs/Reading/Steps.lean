import Calculator.Expr.Reading
import Mathlib.Logic.Relation

/-!
# Steps of the reader

A run of the reader is a path of steps. In each state either an operand or an operator is due; a
step reads one token, or the keyword with its name, and the run ends in a state without a step. All
that one step does to the tokens, the depth and the stacks is said here, so that what a run keeps
is shown for its steps.

## Main results

- `exists_path`: every run is a path to a state in which it ends, with the result of that state.
- `exists_end`: what each step keeps holds where the run ends.
-/

namespace Calculator

/-- What is due: an operand, directly after a prefix minus or not, or an operator. -/
inductive Due where
  | operand (negated : Bool)
  | operator
  deriving DecidableEq, Repr

structure ReaderState where
  due : Due
  depth : Nat
  rest : List Token
  «stacks» : Stacks
  deriving DecidableEq, Repr

namespace ReaderState

def read (extent : Extent) (state : ReaderState) : Except (ParseError × Progress) Progress :=
  match state.due with
  | .operand negated => readOperand extent negated state.depth state.rest state.stacks
  | .operator => readOperator extent state.depth state.rest state.stacks

/-- The first token of the rest, if there is one, is no binary operator. -/
def NoOperator (tokens : List Token) : Prop :=
  ∀ token, tokens.head? = some token → token.kind.binaryOperator? = none

/-- The reader goes from a state to the next one. -/
inductive Step (extent : Extent) : ReaderState → ReaderState → Prop
  | letName {negated : Bool} {depth : Nat} {keyword name : Token} {rest : List Token} {s : Stacks}
      (word : keyword.kind = .letWord) (identifier : name.kind = .identifier) :
      Step extent ⟨.operand negated, depth, keyword :: name :: rest, s⟩
        ⟨.operator, depth, rest, s.addOperand (.identifier name.text)⟩
  | name {negated : Bool} {depth : Nat} {token : Token} {rest : List Token} {s : Stacks}
      (identifier : token.kind = .identifier) :
      Step extent ⟨.operand negated, depth, token :: rest, s⟩
        ⟨.operator, depth, rest, s.addOperand (.identifier token.text)⟩
  | integer {negated : Bool} {depth : Nat} {token : Token} {rest : List Token} {s : Stacks}
      {n : Int} (kind : token.kind = .integer) (value : token.integer? = some n)
      (range : n ≤ largestInteger ∨ negated = true) :
      Step extent ⟨.operand negated, depth, token :: rest, s⟩
        ⟨.operator, depth, rest, s.addOperand (.integer n)⟩
  | real {negated : Bool} {depth : Nat} {token : Token} {rest : List Token} {s : Stacks}
      {x : Binary} (kind : token.kind = .real) (value : token.real? = some x) :
      Step extent ⟨.operand negated, depth, token :: rest, s⟩
        ⟨.operator, depth, rest, s.addOperand (.real x)⟩
  | opening {negated : Bool} {depth : Nat} {token : Token} {rest : List Token} {s : Stacks}
      (opens : token.kind = .leftParen) :
      Step extent ⟨.operand negated, depth, token :: rest, s⟩
        ⟨.operand false, depth + 1, rest, s.addOperator .sentinel⟩
  | sign {negated : Bool} {depth : Nat} {token : Token} {rest : List Token} {s : Stacks}
      (minus : token.kind = .minus) :
      Step extent ⟨.operand negated, depth, token :: rest, s⟩
        ⟨.operand true, depth, rest, s.addOperator .negate⟩
  -- Outside all parentheses a single primary is over where an operator is due.
  | binary {depth : Nat} {token : Token} {rest : List Token} {s t : Stacks} {op : Operator}
      (more : ¬(extent = .primary ∧ depth = 0)) (spelled : token.kind.binaryOperator? = some op)
      (pushed : s.push op = .ok t) :
      Step extent ⟨.operator, depth, token :: rest, s⟩ ⟨.operand false, depth, rest, t⟩
  | closing {depth : Nat} {token : Token} {rest : List Token} {s t : Stacks}
      (closes : token.kind = .rightParen) (unwound : s.unwind = .ok t) :
      Step extent ⟨.operator, depth + 1, token :: rest, s⟩
        ⟨.operator, depth, rest, t.dropOperator⟩

/-- The reader ends in a state with a result. -/
inductive Ends (extent : Extent) : ReaderState → Except (ParseError × Progress) Progress → Prop
  | operandMissing {negated : Bool} {depth : Nat} {s : Stacks} :
      Ends extent ⟨.operand negated, depth, [], s⟩ (.error (.operandMissing, ⟨[], s⟩))
  | nameMissing {negated : Bool} {depth : Nat} {keyword : Token} {s : Stacks}
      (word : keyword.kind = .letWord) :
      Ends extent ⟨.operand negated, depth, [keyword], s⟩
        (.error (.nameExpected keyword.column, ⟨[], s⟩))
  | nameExpected {negated : Bool} {depth : Nat} {keyword token : Token} {rest : List Token}
      {s : Stacks} (word : keyword.kind = .letWord) (other : token.kind ≠ .identifier) :
      Ends extent ⟨.operand negated, depth, keyword :: token :: rest, s⟩
        (.error (.nameExpected token.column, ⟨token :: rest, s⟩))
  | tooLarge {depth : Nat} {token : Token} {rest : List Token} {s : Stacks} {n : Int}
      (kind : token.kind = .integer) (value : token.integer? = some n)
      (large : largestInteger < n) :
      Ends extent ⟨.operand false, depth, token :: rest, s⟩
        (.error (.literalTooLarge token, ⟨token :: rest, s⟩))
  -- A literal may stand here, but this one has no value.
  | noNumeral {negated : Bool} {depth : Nat} {token : Token} {rest : List Token} {s : Stacks}
      (literal : (token.kind = .integer ∧ token.integer? = none) ∨
        (token.kind = .real ∧ token.real? = none)) :
      Ends extent ⟨.operand negated, depth, token :: rest, s⟩
        (.error (.unexpectedToken token, ⟨token :: rest, s⟩))
  | noOperand {negated : Bool} {depth : Nat} {token : Token} {rest : List Token} {s : Stacks}
      (other : token.kind ∉
        [.letWord, .identifier, .integer, .real, .leftParen, .minus]) :
      Ends extent ⟨.operand negated, depth, token :: rest, s⟩
        (.error (.unexpectedToken token, ⟨token :: rest, s⟩))
  | primary {tokens : List Token} {s : Stacks} (single : extent = .primary) :
      Ends extent ⟨.operator, 0, tokens, s⟩ (.ok ⟨tokens, s⟩)
  -- The operator is read before the reductions that fail.
  | pushFails {depth : Nat} {token : Token} {rest : List Token} {s t : Stacks} {op : Operator}
      {error : ParseError} (more : ¬(extent = .primary ∧ depth = 0))
      (spelled : token.kind.binaryOperator? = some op) (failed : s.push op = .error (error, t)) :
      Ends extent ⟨.operator, depth, token :: rest, s⟩ (.error (error, ⟨rest, t⟩))
  | unwindFails {depth : Nat} {tokens : List Token} {s t : Stacks} {error : ParseError}
      (more : ¬(extent = .primary ∧ depth = 0)) (none : NoOperator tokens)
      (failed : s.unwind = .error (error, t)) :
      Ends extent ⟨.operator, depth, tokens, s⟩ (.error (error, ⟨tokens, t⟩))
  | expression {tokens : List Token} {s t : Stacks} (whole : extent = .expression)
      (none : NoOperator tokens) (unwound : s.unwind = .ok t) :
      Ends extent ⟨.operator, 0, tokens, s⟩ (.ok ⟨tokens, t⟩)
  | closingMissing {depth : Nat} {s t : Stacks} (unwound : s.unwind = .ok t) :
      Ends extent ⟨.operator, depth + 1, [], s⟩ (.error (.closingMissing, ⟨[], t⟩))
  | closingExpected {depth : Nat} {token : Token} {rest : List Token} {s t : Stacks}
      (none : token.kind.binaryOperator? = none) (other : token.kind ≠ .rightParen)
      (unwound : s.unwind = .ok t) :
      Ends extent ⟨.operator, depth + 1, token :: rest, s⟩
        (.error (.closingExpected token, ⟨token :: rest, t⟩))

variable {extent : Extent} {state next : ReaderState}

private theorem Step.length_lt (step : Step extent state next) :
    next.rest.length < state.rest.length := by
  cases step <;> simp only [List.length_cons] <;> omega

/-- A step leaves the result of the run as it is. -/
theorem Step.read_eq (step : Step extent state next) : state.read extent = next.read extent := by
  -- The reader recurses on a measure, so that it is opened by its equation and never by reduction.
  cases step with
  | letName word identifier =>
    simp only [read]
    rw [readOperand.eq_def]
    simp only [word, identifier, if_true]
  | name identifier =>
    simp only [read]
    rw [readOperand.eq_def]
    simp only [identifier]
  | @integer negated depth token rest s n kind value range =>
    have allowed : ¬(largestInteger < n ∧ negated = false) := by
      rintro ⟨large, plain⟩
      rcases range with small | sign
      · exact absurd large (Int.not_lt.mpr small)
      · exact Bool.noConfusion (sign.symm.trans plain)
    simp only [read]
    rw [readOperand.eq_def]
    simp only [kind, value, if_neg allowed]
  | real kind value =>
    simp only [read]
    rw [readOperand.eq_def]
    simp only [kind, value]
  | opening opens =>
    simp only [read]
    rw [readOperand.eq_def]
    simp only [opens]
  | sign minus =>
    simp only [read]
    rw [readOperand.eq_def]
    simp only [minus]
  | binary more spelled pushed =>
    simp only [read]
    rw [readOperator.eq_def]
    simp only [if_neg more, spelled, pushed]
  | closing closes unwound =>
    simp only [read]
    rw [readOperator.eq_def]
    simp only [reduceCtorEq, Nat.add_eq_zero_iff, and_false, if_false, closes,
      TokenKind.binaryOperator?, unwound, if_true]

/-- The result with which the reader ends is the result of the run. -/
theorem Ends.read_eq {result : Except (ParseError × Progress) Progress}
    (ends : Ends extent state result) : state.read extent = result := by
  cases ends with
  | operandMissing =>
    simp only [read]
    rw [readOperand.eq_def]
  | nameMissing word =>
    simp only [read]
    rw [readOperand.eq_def]
    simp only [word]
  | nameExpected word other =>
    simp only [read]
    rw [readOperand.eq_def]
    simp only [word, if_neg other]
  | tooLarge kind value large =>
    simp only [read]
    rw [readOperand.eq_def]
    simp only [kind, value, large, and_self, if_true]
  | noNumeral literal =>
    simp only [read]
    rw [readOperand.eq_def]
    rcases literal with ⟨kind, value⟩ | ⟨kind, value⟩
    · simp only [kind, value]
    · simp only [kind, value]
  | @noOperand _ _ token _ _ other =>
    simp only [read]
    rw [readOperand.eq_def]
    cases kind : token.kind with
    | letWord | identifier | integer | real | leftParen | minus =>
      exact absurd (by simp [kind]) other
    | plus | star | slash | caret | equals | rightParen => simp only [kind]
  | primary single =>
    simp only [read]
    rw [readOperator.eq_def, if_pos ⟨single, rfl⟩]
  | pushFails more spelled failed =>
    simp only [read]
    rw [readOperator.eq_def]
    simp only [if_neg more, spelled, failed]
  | @unwindFails depth tokens _ _ _ more none failed =>
    simp only [read]
    rw [readOperator.eq_def, if_neg more]
    cases tokens with
    | nil => simp only [failed]
    | cons token rest => simp only [none token rfl, failed]
  | @expression tokens _ _ whole none unwound =>
    subst whole
    simp only [read]
    rw [readOperator.eq_def, if_neg nofun]
    cases tokens with
    | nil => simp only [unwound]
    | cons token rest => simp only [none token rfl, unwound]
  | closingMissing unwound =>
    simp only [read]
    rw [readOperator.eq_def]
    simp only [reduceCtorEq, Nat.add_eq_zero_iff, and_false, if_false, unwound]
  | closingExpected none other unwound =>
    simp only [read]
    rw [readOperator.eq_def]
    simp only [reduceCtorEq, Nat.add_eq_zero_iff, and_false, if_false, none, unwound,
      if_neg other]

/-- Where an operand is due, the reader takes a step or ends. -/
private theorem step_or_ends_operand (extent : Extent) (negated : Bool) (depth : Nat)
    (tokens : List Token) (s : Stacks) :
    (∃ next, Step extent ⟨.operand negated, depth, tokens, s⟩ next) ∨
      Ends extent ⟨.operand negated, depth, tokens, s⟩
        (readOperand extent negated depth tokens s) := by
  rw [readOperand.eq_def]
  cases tokens with
  | nil => exact .inr .operandMissing
  | cons token rest =>
    cases kind : token.kind with
    | letWord =>
      cases rest with
      | nil => exact .inr (by simpa only [kind] using .nameMissing kind)
      | cons name rest =>
        by_cases identifier : name.kind = .identifier
        · exact .inl ⟨_, .letName kind identifier⟩
        · exact .inr (by simpa only [kind, if_neg identifier] using .nameExpected kind identifier)
    | identifier => exact .inl ⟨_, .name kind⟩
    | integer =>
      cases value : token.integer? with
      | none => exact .inr (by simpa only [kind, value] using .noNumeral (.inl ⟨kind, value⟩))
      | some n =>
        -- Directly after a sign no magnitude is refused.
        by_cases large : largestInteger < n ∧ negated = false
        · obtain ⟨above, rfl⟩ := large
          refine .inr ?_
          simpa only [kind, value, above, and_self, if_true] using .tooLarge kind value above
        · have range : n ≤ largestInteger ∨ negated = true := by
            by_cases above : largestInteger < n
            · exact .inr (by simpa [above] using large)
            · exact .inl (Int.not_lt.mp above)
          exact .inl ⟨_, .integer kind value range⟩
    | real =>
      cases value : token.real? with
      | none => exact .inr (by simpa only [kind, value] using .noNumeral (.inr ⟨kind, value⟩))
      | some x => exact .inl ⟨_, .real kind value⟩
    | leftParen => exact .inl ⟨_, .opening kind⟩
    | minus => exact .inl ⟨_, .sign kind⟩
    | plus | star | slash | caret | equals | rightParen =>
      exact .inr (by simpa only [kind] using .noOperand (by simp [kind]))

/-- Where an operator is due, the reader takes a step or ends. -/
private theorem step_or_ends_operator (extent : Extent) (depth : Nat) (tokens : List Token)
    (s : Stacks) :
    (∃ next, Step extent ⟨.operator, depth, tokens, s⟩ next) ∨
      Ends extent ⟨.operator, depth, tokens, s⟩ (readOperator extent depth tokens s) := by
  rw [readOperator.eq_def]
  by_cases single : extent = .primary ∧ depth = 0
  · obtain ⟨rfl, rfl⟩ := single
    exact .inr (.primary rfl)
  rw [if_neg single]
  -- What ends outside all parentheses from here on is a whole expression.
  have whole : depth = 0 → extent = .expression := by
    intro outside
    cases extent with
    | primary => exact absurd ⟨rfl, outside⟩ single
    | expression => rfl
  cases tokens with
  | nil =>
    have none : NoOperator [] := by simp [NoOperator]
    cases unwound : s.unwind with
    | error failure => exact .inr (.unwindFails single none unwound)
    | ok t =>
      cases depth with
      | zero => exact .inr (.expression (whole rfl) none unwound)
      | succ depth => exact .inr (.closingMissing unwound)
  | cons token rest =>
    cases spelled : token.kind.binaryOperator? with
    | some op =>
      cases pushed : s.push op with
      | error failure =>
        exact .inr (by simpa only [spelled, pushed] using .pushFails single spelled pushed)
      | ok t => exact .inl ⟨_, .binary single spelled pushed⟩
    | none =>
      have none : NoOperator (token :: rest) := by simpa [NoOperator] using spelled
      simp only [spelled]
      cases unwound : s.unwind with
      | error failure => exact .inr (.unwindFails single none unwound)
      | ok t =>
        cases depth with
        | zero => exact .inr (.expression (whole rfl) none unwound)
        | succ depth =>
          by_cases closes : token.kind = .rightParen
          · exact .inl ⟨_, .closing closes unwound⟩
          · exact .inr (by simpa only [if_neg closes] using .closingExpected spelled closes unwound)

/-- A state has a next one or the run ends in it. -/
theorem step_or_ends (extent : Extent) (state : ReaderState) :
    (∃ next, Step extent state next) ∨ Ends extent state (state.read extent) := by
  obtain ⟨due, depth, rest, s⟩ := state
  cases due with
  | operand negated => exact step_or_ends_operand extent negated depth rest s
  | operator => exact step_or_ends_operator extent depth rest s

/-- Every run is a path of steps to a state in which it ends. -/
theorem exists_path (extent : Extent) (state : ReaderState) :
    ∃ final, Relation.ReflTransGen (Step extent) state final ∧
      Ends extent final (state.read extent) := by
  rcases step_or_ends extent state with ⟨next, step⟩ | ends
  · obtain ⟨final, path, ends⟩ := exists_path extent next
    exact ⟨final, .head step path, step.read_eq ▸ ends⟩
  · exact ⟨state, .refl, ends⟩
termination_by state.rest.length
decreasing_by exact step.length_lt

/-- What holds of the tokens read and the state, and is kept by each step, holds where the run
ends. -/
theorem exists_end {kept : List Token → ReaderState → Prop} (state : ReaderState)
    (start : kept [] state)
    (keeps : ∀ {read : List Token} {state next : ReaderState}, Step extent state next →
      kept read state → ∃ tokens, state.rest = tokens ++ next.rest ∧ kept (read ++ tokens) next) :
    ∃ read final, state.rest = read ++ final.rest ∧ kept read final ∧
      Ends extent final (state.read extent) := by
  obtain ⟨final, path, ends⟩ := exists_path extent state
  have kept_final : ∃ read, state.rest = read ++ final.rest ∧ kept read final := by
    clear ends
    induction path with
    | refl => exact ⟨[], rfl, start⟩
    | tail _ step ih =>
      obtain ⟨read, split, holds⟩ := ih
      obtain ⟨tokens, consumed, holds⟩ := keeps step holds
      exact ⟨read ++ tokens, by rw [split, consumed, List.append_assoc], holds⟩
  obtain ⟨read, split, holds⟩ := kept_final
  exact ⟨read, final, split, holds, ends⟩

end ReaderState

end Calculator
