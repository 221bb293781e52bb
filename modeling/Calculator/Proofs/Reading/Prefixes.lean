import Calculator.Proofs.Reading.Outline
import Calculator.Proofs.Reading.Soundness
import Calculator.Proofs.Reading.Steps

/-!
# Faults are reported at the earliest token

The reader never reads past a fault of syntax. What it has read begins some expression; with the
token that it reports, or with the end of the tokens, no expression goes on.

## Main result

`syntax_errors_are_reported_earliest`: the place of every fault, for every list of tokens.

## Proof strategy

A state of the reader stands for a language, that of what completes an expression from there on.
A step goes over to the language that is left after the token it reads, so after a run the
language of the state is exactly what may follow the tokens read. Stacks play no part in it.
-/

namespace Calculator

open Outline

/-- The tokens begin some expression. -/
def Extendable (tokens : List Token) : Prop :=
  ∃ more, Expression (tokens.map Token.kind ++ more)

/-- No expression begins with the tokens up to a place and the one there. At their end, the
tokens are no expression. -/
def Blocked (tokens : List Token) (place : Nat) : Prop :=
  match tokens[place]? with
  | some _ => ¬Extendable (tokens.take (place + 1))
  | none => ¬Expression (tokens.map Token.kind)

namespace ParseError

/-- A token stands where it may not stand, or one is missing. A literal is never misplaced when
it is refused as a numeral: it is refused for its spelling. -/
def IsMisplaced : ParseError → Prop
  | operandMissing | closingMissing | closingExpected _ | nameExpected _ | trailing _ => True
  | unexpectedToken token => token.kind ≠ .integer ∧ token.kind ≠ .real
  | targetExpected | literalTooLarge _ | operandsMissing .. | scopeExhausted | unreduced ..
  | nothingOnTop | nothingToPop => False

/-- The fault names the token at a place, or the end. A name that is missing at the end is
reported in the column of the keyword, which is the last token. -/
def PointsAt (tokens : List Token) (place : Nat) : ParseError → Prop
  | operandMissing | closingMissing => place = tokens.length
  | unexpectedToken token | closingExpected token | trailing token => tokens[place]? = some token
  | nameExpected column => (tokens[place]?.or tokens.getLast?).map Token.column = some column
  | _ => False

end ParseError

/-! ### Reductions misplace nothing -/

private theorem not_isMisplaced_of_combine {op : Operator} {operands left : List Expr}
    {error : ParseError} (failed : combine op operands = .error (error, left)) :
    ¬error.IsMisplaced := by
  unfold combine at failed
  split at failed
  · cases failed
    exact id
  · cases failed
  · split at failed
    · cases failed
      exact id
    · cases failed
  · cases failed
    exact id

private theorem not_isMisplaced_of_reduceWhile {isComplete : Operator → Bool}
    {operators : List Operator} {operands : List Expr} {error : ParseError} {s : Stacks}
    (failed : Stacks.reduceWhile isComplete operators operands = .error (error, s)) :
    ¬error.IsMisplaced := by
  induction operators generalizing operands with
  | nil =>
    cases failed
    exact id
  | cons top below ih =>
    rw [Stacks.reduceWhile] at failed
    split at failed
    · cases combined : combine top operands with
      | ok left =>
        rw [combined] at failed
        exact ih failed
      | error failure =>
        rw [combined] at failed
        cases failed
        exact not_isMisplaced_of_combine combined
    · cases failed

private theorem not_isMisplaced_of_push {s t : Stacks} {op : Operator} {error : ParseError}
    (failed : s.push op = .error (error, t)) : ¬error.IsMisplaced := by
  unfold Stacks.push at failed
  split at failed
  · cases failed
  · next reduced =>
    cases failed
    exact not_isMisplaced_of_reduceWhile reduced

/-! ### Places -/

/-- A fault at a place is reported there as early as possible. -/
def Reported (tokens : List Token) (error : ParseError) (place : Nat) : Prop :=
  Extendable (tokens.take place) ∧
    (error.IsMisplaced → error.PointsAt tokens place ∧ Blocked tokens place)

namespace Reported

variable {tokens read rest : List Token} {token : Token} {error : ParseError}

private theorem of_not_isMisplaced (begun : Extendable read) (other : ¬error.IsMisplaced) :
    Reported (read ++ rest) error ((read ++ rest).length - rest.length) := by
  have place : (read ++ rest).length - rest.length = read.length := by simp
  rw [place]
  exact ⟨by simpa using begun, fun misplaced => absurd misplaced other⟩

private theorem at_token (begun : Extendable read)
    (points : error.PointsAt (read ++ token :: rest) read.length)
    (stuck : ∀ more, ¬Expression (read.map Token.kind ++ token.kind :: more)) :
    Reported (read ++ token :: rest) error
      ((read ++ token :: rest).length - (token :: rest).length) := by
  have place : (read ++ token :: rest).length - (token :: rest).length = read.length := by simp
  have found : (read ++ token :: rest)[read.length]? = some token := by simp
  have taken : (read ++ token :: rest).take (read.length + 1) = read ++ [token] := by
    rw [List.take_length_add_append, List.take_succ_cons, List.take_zero]
  rw [place]
  refine ⟨by simpa using begun, fun _ => ⟨points, ?_⟩⟩
  simp only [Blocked, found, taken]
  rintro ⟨more, expression⟩
  exact stuck more (by simpa using expression)

private theorem at_end (begun : Extendable tokens) (points : error.PointsAt tokens tokens.length)
    (stuck : ¬Expression (tokens.map Token.kind)) : Reported tokens error tokens.length := by
  refine ⟨by simpa using begun, fun _ => ⟨points, ?_⟩⟩
  simpa [Blocked] using stuck

end Reported

/-! ### What the states accept -/

namespace ReaderState

/-- The kinds complete an expression from the state on. -/
def Accepts (state : ReaderState) (kinds : List TokenKind) : Prop :=
  match state.due with
  | .operand _ => Begins state.depth kinds
  | .operator => Completes state.depth kinds

variable {extent : Extent} {state next : ReaderState}

private theorem exists_accepts (state : ReaderState) : ∃ kinds, state.Accepts kinds := by
  obtain ⟨due, depth, rest, s⟩ := state
  cases due with
  | operand negated => exact exists_begins depth
  | operator => exact exists_completes depth

def Follows (read : List Token) (state : ReaderState) : Prop :=
  ∀ more, Expression (read.map Token.kind ++ more) ↔ state.Accepts more

/-- A step reads tokens, and the next state accepts what may follow them. -/
theorem Step.accepts_iff (step : Step extent state next) :
    ∃ read, state.rest = read ++ next.rest ∧
      ∀ more, state.Accepts (read.map Token.kind ++ more) ↔ next.Accepts more := by
  cases step with
  | @letName _ _ keyword name _ _ word identifier =>
    exact ⟨[keyword, name], rfl, by simp [Accepts, begins_cons_iff, word, identifier]⟩
  | @name _ _ token _ _ kind | @integer _ _ token _ _ _ kind | @real _ _ token _ _ _ kind
  | @opening _ _ token _ _ kind | @sign _ _ token _ _ kind =>
    exact ⟨[token], rfl, by simp [Accepts, begins_cons_iff, kind]⟩
  | @binary _ token _ _ _ op _ spelled =>
    have binary := mem_binaryOperators spelled
    have noClosing : token.kind ≠ .rightParen := by
      intro closes
      rw [closes] at spelled
      cases spelled
    exact ⟨[token], rfl, by simp [Accepts, completes_cons_iff, binary, noClosing]⟩
  | @closing _ token _ _ _ closes =>
    exact ⟨[token], rfl, by simp [Accepts, completes_cons_iff, closes, binaryOperators]⟩

theorem Step.follows {read : List Token} (step : Step extent state next)
    (follows : Follows read state) :
    ∃ tokens, state.rest = tokens ++ next.rest ∧ Follows (read ++ tokens) next := by
  obtain ⟨tokens, consumed, accepts⟩ := step.accepts_iff
  refine ⟨tokens, consumed, fun more => ?_⟩
  rw [List.map_append, List.append_assoc]
  exact (follows _).trans (accepts more)

namespace Follows

variable {read : List Token} {token : Token} {kinds : List TokenKind}

private theorem extendable (follows : Follows read state) : Extendable read := by
  obtain ⟨more, accepts⟩ := state.exists_accepts
  exact ⟨more, (follows more).mpr accepts⟩

private theorem extendable_append (follows : Follows read state)
    (accepts : state.Accepts (token.kind :: kinds)) : Extendable (read ++ [token]) :=
  ⟨kinds, by simpa using (follows _).mpr accepts⟩

/-- A name may follow the keyword. -/
private theorem extendable_keyword {negated : Bool} {depth : Nat} {rest : List Token} {s : Stacks}
    (follows : Follows read ⟨.operand negated, depth, rest, s⟩) (word : token.kind = .letWord) :
    Extendable (read ++ [token]) := by
  obtain ⟨more, completes⟩ := exists_completes depth
  exact follows.extendable_append
    (begins_cons_iff.mpr (.inr (.inl ⟨word, more, rfl, completes⟩)))

private theorem not_expression (follows : Follows read state) (rejects : ¬state.Accepts []) :
    ¬Expression (read.map Token.kind) := by
  simpa using (follows []).not.mpr rejects

end Follows

/-! ### The end of a run -/

/-- A run that fails reports its fault at the earliest place. -/
theorem Ends.reported {read : List Token} {error : ParseError} {p : Progress}
    (ends : Ends .expression state (.error (error, p))) (follows : Follows read state) :
    Reported (read ++ state.rest) error ((read ++ state.rest).length - p.rest.length) := by
  cases ends with
  | operandMissing =>
    rw [List.append_nil]
    exact .at_end follows.extendable rfl (follows.not_expression not_begins_nil)
  | @nameMissing _ _ keyword _ word =>
    have stuck : ¬Expression ((read ++ [keyword]).map Token.kind) := by
      simp [follows _, Accepts, begins_cons_iff, word]
    exact .at_end (follows.extendable_keyword word) (by simp [ParseError.PointsAt]) stuck
  | @nameExpected _ _ keyword token _ _ word other =>
    have stuck (more) : ¬Expression ((read ++ [keyword]).map Token.kind ++ token.kind :: more) := by
      simp [follows _, Accepts, begins_cons_iff, word, other]
    rw [List.append_cons]
    exact .at_token (follows.extendable_keyword word) (by simp [ParseError.PointsAt]) stuck
  | tooLarge => exact .of_not_isMisplaced follows.extendable id
  | noNumeral literal =>
    refine .of_not_isMisplaced follows.extendable fun misplaced => ?_
    rcases literal with ⟨integer, _⟩ | ⟨real, _⟩
    · exact misplaced.1 integer
    · exact misplaced.2 real
  | noOperand other =>
    refine .at_token follows.extendable (by simp [ParseError.PointsAt]) fun more => ?_
    simp only [List.mem_cons, List.not_mem_nil, or_false, not_or] at other
    simp [follows _, Accepts, begins_cons_iff, other]
  | @pushFails depth token _ _ _ _ _ _ spelled failed =>
    -- The operator is read before the reductions that it calls for.
    obtain ⟨more, begins⟩ := exists_begins depth
    have begun : Extendable (read ++ [token]) := follows.extendable_append
      (completes_cons_iff.mpr (.inl ⟨mem_binaryOperators spelled, begins⟩))
    rw [List.append_cons]
    exact .of_not_isMisplaced begun (not_isMisplaced_of_push failed)
  | unwindFails _ _ failed =>
    exact .of_not_isMisplaced follows.extendable (not_isMisplaced_of_reduceWhile failed)
  | @closingMissing depth =>
    have unfinished : ¬Completes (depth + 1) [] := by simp [completes_nil_iff]
    rw [List.append_nil]
    exact .at_end follows.extendable rfl (follows.not_expression unfinished)
  | closingExpected none other =>
    refine .at_token follows.extendable (by simp [ParseError.PointsAt]) fun more => ?_
    simp [follows _, Accepts, completes_cons_iff, other, binaryOperator?_eq_none_iff.mp none]

/-- A run that succeeds stops where no operator follows outside all parentheses. -/
theorem Ends.of_ok {p : Progress} (ends : Ends .expression state (.ok p)) :
    p.rest = state.rest ∧ NoOperator p.rest ∧ state.due = .operator ∧ state.depth = 0 := by
  cases ends with
  | primary single => cases single
  | expression _ none => exact ⟨rfl, none, rfl, rfl⟩

end ReaderState

/-- A statement that fails reports its fault at the earliest place. -/
theorem reported_of_statement {tokens : List Token} {error : ParseError} {r : Reading}
    (failed : (Reading.start tokens).statement = .error (error, r)) :
    Reported tokens error r.position := by
  -- At the start just an expression is accepted.
  have start : ReaderState.Follows [] ⟨.operand false, 0, tokens, .start⟩ :=
    fun _ => expression_iff_begins
  obtain ⟨read, final, rfl, follows, ends⟩ :=
    ReaderState.exists_end _ start fun step follows => step.follows follows
  rw [Reading.statement] at failed
  split at failed
  · cases failed
  change ReaderState.Ends .expression final
    (readOperand .expression false 0 (read ++ final.rest) .start) at ends
  simp only [Reading.expression, Reading.withProgress, Reading.start] at failed
  cases result : readOperand .expression false 0 (read ++ final.rest) .start with
  | error failure =>
    rw [result] at ends failed
    cases failed
    exact ends.reported follows
  | ok p =>
    rw [result] at ends failed
    obtain ⟨due, depth, left, s⟩ := final
    obtain ⟨rest, t⟩ := p
    obtain ⟨rfl, none, rfl, rfl⟩ := ends.of_ok
    cases rest with
    | cons token rest =>
      cases failed
      -- Outside all parentheses only a binary operator goes on.
      refine .at_token follows.extendable (by simp [ParseError.PointsAt]) fun more => ?_
      have other := binaryOperator?_eq_none_iff.mp (none token rfl)
      simp [follows _, ReaderState.Accepts, completes_cons_iff, other]
    | nil =>
      simp only at failed
      split at failed
      · cases failed
      · -- Whatever the stacks hold, the tokens begin an expression.
        cases failed
        exact .of_not_isMisplaced follows.extendable id

/-- Tokens that are refused are refused at the earliest place: those read begin an expression,
and when a token is misplaced or missing, it is the one reported, and no expression goes on with
it. A scanned token is never refused for its spelling. -/
theorem syntax_errors_are_reported_earliest {tokens : List Token} {error : ParseError}
    (refused : Expr.ofTokens tokens = .error error) :
    ∃ r : Reading, (Reading.start tokens).statement = .error (error, r) ∧
      Extendable (tokens.take r.position) ∧
      (error.IsMisplaced → error.PointsAt tokens r.position ∧ Blocked tokens r.position) ∧
      ((∀ token ∈ tokens, token.IsLexical) →
        ∀ token, error = .unexpectedToken token → error.IsMisplaced) := by
  have ⟨r, failed⟩ : ∃ r, (Reading.start tokens).statement = .error (error, r) := by
    rw [Expr.ofTokens] at refused
    split at refused
    · cases refused
    · next failed =>
      cases refused
      exact ⟨_, failed⟩
  obtain ⟨begun, misplaced⟩ := reported_of_statement failed
  refine ⟨r, failed, begun, misplaced, ?_⟩
  rintro lexical token rfl
  exact isSyntactic_of_ofTokens lexical refused

/-- The tokens of `-(let x y)`. -/
def twoNames : List Token :=
  [⟨.minus, "-", 1⟩, ⟨.leftParen, "(", 2⟩, ⟨.letWord, "let", 3⟩, ⟨.identifier, "x", 7⟩,
   ⟨.identifier, "y", 9⟩, ⟨.rightParen, ")", 10⟩]

/-- Of two names in a row the second one is reported, although the parenthesis is closed. -/
theorem twoNames_are_refused_at_the_second :
    Expr.ofTokens twoNames = .error (.closingExpected ⟨.identifier, "y", 9⟩) ∧
    Extendable (twoNames.take 4) ∧ ¬Extendable (twoNames.take 5) := by
  have refused : Expr.ofTokens twoNames = .error (.closingExpected ⟨.identifier, "y", 9⟩) := rfl
  obtain ⟨r, failed, begun, misplaced, _⟩ := syntax_errors_are_reported_earliest refused
  have reached : (Reading.start twoNames).statement
      = .error (.closingExpected ⟨.identifier, "y", 9⟩, ⟨twoNames, twoNames.drop 4,
        ⟨[.sentinel, .negate, .sentinel], [.identifier "x"]⟩⟩) := rfl
  rw [reached] at failed
  cases failed
  exact ⟨refused, begun, (misplaced trivial).2⟩

end Calculator
