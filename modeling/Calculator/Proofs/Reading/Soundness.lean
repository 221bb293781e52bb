import Calculator.Proofs.Reading.Completeness
import Calculator.Proofs.Reading.Waiting
import Calculator.Proofs.Token.Lexical

/-!
# Whatever is read is derivable

A run of the reader keeps the stacks fitting to the tokens read. When it ends, one tree is
left and the tokens spell it; when it fails, a token is wrong or missing, and never the state
of the stacks.

## Main results

- `derives_of_ofTokens`: a list of tokens that is read as a tree spells that tree.
- `isSyntactic_of_ofTokens`: scanned tokens are refused for a fault of syntax only.

## Proof strategy

Where an operand is due the stacks fit in one way (`BeforeOperand`), after a primary in another
(`AfterPrimary`). Each step of the reader keeps them fitting; the reductions between two tokens
are settled by the lemmas on the stacks.
-/

namespace Calculator

/-- A fault of the tokens: something stands where it may not stand, is missing, or is out of
range. The other faults are failures of the reader itself, or literals that are no numerals. -/
def ParseError.IsSyntactic : ParseError → Prop
  | operandMissing | closingMissing | closingExpected _ | nameExpected _ | targetExpected
  | trailing _ | literalTooLarge _ => True
  | unexpectedToken token => token.kind ≠ .integer ∧ token.kind ≠ .real
  | operandsMissing .. | scopeExhausted | unreduced .. | nothingOnTop | nothingToPop => False

/-- The stacks right after a primary: it is the top operand, and the operators above which
it stands waited for it. -/
def AfterPrimary (depth : Nat) (read : List Token) (s : Stacks) : Prop :=
  ∃ before spelled top below e operands, s = ⟨top :: below, e :: operands⟩ ∧
    Awaits depth before (top :: below) operands ∧ Derives .atom (top == .negate) spelled e ∧
    before ++ spelled = read

/-- Where an operand is due, directly after a prefix minus or not. -/
def BeforeOperand (negated : Bool) (depth : Nat) (read : List Token) (s : Stacks) : Prop :=
  Awaits depth read s.operators s.operands ∧ negated = (s.operators.head? == some .negate)

def Outcome (tokens : List Token) : Except (ParseError × Progress) Progress → Prop
  | .ok p => ∃ spelled e, spelled ++ p.rest = tokens ∧ p.stacks = ⟨[.sentinel], [e]⟩ ∧
      Derives .assignment false spelled e
  | .error (error, _) => (∀ token ∈ tokens, token.IsLexical) → error.IsSyntactic

namespace BeforeOperand

variable {negated : Bool} {depth : Nat} {read : List Token} {s : Stacks} {token : Token}

theorem addOperand {spelled : List Token} {e : Expr} (due : BeforeOperand negated depth read s)
    (atom : Derives .atom negated spelled e) :
    AfterPrimary depth (read ++ spelled) (s.addOperand e) := by
  obtain ⟨awaits, rfl⟩ := due
  obtain ⟨operators, operands⟩ := s
  obtain ⟨top, below, rfl⟩ := awaits.operators_eq_cons
  exact ⟨read, spelled, top, below, e, operands, rfl, awaits, by simpa using atom, rfl⟩

theorem addSentinel (due : BeforeOperand negated depth read s) (opens : token.kind = .leftParen) :
    BeforeOperand false (depth + 1) (read ++ [token]) (s.addOperator .sentinel) :=
  ⟨.opened due.1 opens, rfl⟩

theorem addNegate (due : BeforeOperand negated depth read s) (minus : token.kind = .minus) :
    BeforeOperand true depth (read ++ [token]) (s.addOperator .negate) :=
  ⟨.negated due.1 minus, rfl⟩

end BeforeOperand

namespace AfterPrimary

variable {depth : Nat} {read : List Token} {s t : Stacks} {token : Token} {error : ParseError}

theorem push {op : Operator} (after : AfterPrimary depth read s)
    (binary : token.kind.binaryOperator? = some op) (pushed : s.push op = .ok t) :
    BeforeOperand false depth (read ++ [token]) t := by
  obtain ⟨before, spelled, top, below, e, operands, rfl, awaits, atom, rfl⟩ := after
  rcases awaits.push atom binary with ⟨_, failed⟩ | ⟨operators, rest, result, waiting⟩
  · rw [failed] at pushed
    cases pushed
  · rw [result] at pushed
    cases pushed
    refine ⟨waiting, ?_⟩
    have := (Operator.of_binaryOperator? binary).2.2.1
    simp [this]

theorem push_error {op : Operator} (after : AfterPrimary depth read s)
    (binary : token.kind.binaryOperator? = some op) (failed : s.push op = .error (error, t)) :
    error.IsSyntactic := by
  obtain ⟨before, spelled, top, below, e, operands, rfl, awaits, atom, rfl⟩ := after
  rcases awaits.push atom binary with ⟨_, result⟩ | ⟨_, _, result, _⟩
  · rw [result] at failed
    cases failed
    trivial
  · rw [result] at failed
    cases failed

theorem unwind (after : AfterPrimary depth read s) (unwound : s.unwind = .ok t) :
    ∃ before spelled below e operands, t = ⟨.sentinel :: below, e :: operands⟩ ∧
      Awaits depth before (.sentinel :: below) operands ∧ Derives .assignment false spelled e ∧
      before ++ spelled = read := by
  obtain ⟨before, spelled, top, below, e, operands, rfl, awaits, atom, rfl⟩ := after
  have settled := awaits.unwind atom
  rw [unwound] at settled
  obtain ⟨outer, inner, scope, rest, tree, operands, rfl, stops, waiting, derives, whole⟩ := settled
  obtain rfl : scope = .sentinel := by simpa using stops
  exact ⟨outer, inner, rest, tree, operands, rfl, waiting, derives, whole⟩

theorem unwind_error (after : AfterPrimary depth read s)
    (failed : s.unwind = .error (error, t)) : error.IsSyntactic := by
  obtain ⟨before, spelled, top, below, e, operands, rfl, awaits, atom, rfl⟩ := after
  have settled := awaits.unwind atom
  rw [failed] at settled
  obtain rfl : error = .targetExpected := settled
  trivial

/-- At the end of a statement one tree is left. -/
theorem unwind_zero (after : AfterPrimary 0 read s) (unwound : s.unwind = .ok t) :
    ∃ e, t = ⟨[.sentinel], [e]⟩ ∧ Derives .assignment false read e := by
  obtain ⟨before, spelled, below, e, operands, rfl, awaits, derives, rfl⟩ := after.unwind unwound
  obtain ⟨rfl, rfl, rfl⟩ := awaits.of_sentinel_zero
  exact ⟨e, rfl, derives⟩

/-- A closing parenthesis makes a primary of all since the opening one. -/
private theorem unwind_succ (after : AfterPrimary (depth + 1) read s)
    (closes : token.kind = .rightParen) (unwound : s.unwind = .ok t) :
    AfterPrimary depth (read ++ [token]) t.dropOperator := by
  obtain ⟨before, spelled, below, e, operands, rfl, awaits, derives, rfl⟩ := after.unwind unwound
  obtain ⟨outer, opening, rfl, opens, waiting⟩ := awaits.of_sentinel_succ
  obtain ⟨top, rest, rfl⟩ := waiting.operators_eq_cons
  exact ⟨outer, opening :: (spelled ++ [token]), top, rest, e, operands, rfl, waiting,
    .parentheses opens closes derives, by simp⟩

end AfterPrimary

namespace ReaderState

def Fits (read : List Token) (state : ReaderState) : Prop :=
  match state.due with
  | .operand negated => BeforeOperand negated state.depth read state.stacks
  | .operator => AfterPrimary state.depth read state.stacks

variable {read : List Token} {state next final : ReaderState}
  {result : Except (ParseError × Progress) Progress}

theorem Step.fits {extent : Extent} (step : Step extent state next) (fits : state.Fits read) :
    ∃ tokens, state.rest = tokens ++ next.rest ∧ next.Fits (read ++ tokens) := by
  cases step with
  | @letName _ _ keyword name _ _ word identifier =>
    exact ⟨[keyword, name], rfl, fits.addOperand (.letName word identifier)⟩
  | @name _ _ token _ _ identifier => exact ⟨[token], rfl, fits.addOperand (.name identifier)⟩
  | @integer _ _ token _ _ _ kind value range =>
    exact ⟨[token], rfl, fits.addOperand (.integer kind value range)⟩
  | @real _ _ token _ _ _ kind value => exact ⟨[token], rfl, fits.addOperand (.real kind value)⟩
  | @opening _ _ token _ _ opens => exact ⟨[token], rfl, fits.addSentinel opens⟩
  | @sign _ _ token _ _ minus => exact ⟨[token], rfl, fits.addNegate minus⟩
  | @binary _ token _ _ _ _ _ spelled pushed => exact ⟨[token], rfl, fits.push spelled pushed⟩
  | @closing _ token _ _ _ closes unwound =>
    exact ⟨[token], rfl, fits.unwind_succ closes unwound⟩

/-- A run that ends with fitting stacks has the right outcome. -/
theorem Ends.outcome (ends : Ends .expression state result) (fits : state.Fits read) :
    Outcome (read ++ state.rest) result := by
  cases ends with
  | operandMissing | nameMissing | nameExpected | tooLarge | closingMissing | closingExpected =>
    exact fun _ => trivial
  | @noNumeral _ _ token rest _ literal =>
    intro lexical
    -- A scanned literal has a value.
    rcases literal with ⟨kind, value⟩ | ⟨kind, value⟩
    · have numeral := Token.integer?_of_isLexical (lexical token (by simp)) kind
      rw [numeral] at value
      cases value
    · obtain ⟨x, numeral⟩ := Token.real?_of_isLexical (lexical token (by simp)) kind
      rw [numeral] at value
      cases value
  | noOperand other =>
    simp only [List.mem_cons, List.not_mem_nil, or_false, not_or] at other
    exact fun _ => ⟨other.2.2.1, other.2.2.2.1⟩
  | primary single => cases single
  | pushFails _ spelled failed => exact fun _ => AfterPrimary.push_error fits spelled failed
  | unwindFails _ _ failed => exact fun _ => AfterPrimary.unwind_error fits failed
  | expression _ _ unwound =>
    obtain ⟨e, rfl, derives⟩ := AfterPrimary.unwind_zero fits unwound
    exact ⟨read, e, rfl, rfl, derives⟩

end ReaderState

private theorem outcome_of_start (tokens : List Token) :
    Outcome tokens (readOperand .expression false 0 tokens .start) := by
  have fitting : ReaderState.Fits [] ⟨.operand false, 0, tokens, .start⟩ := ⟨.start, rfl⟩
  obtain ⟨read, final, rfl, fits, ends⟩ :=
    ReaderState.exists_end _ fitting fun step fits => step.fits fits
  exact ends.outcome fits

/-- A statement with tokens is read as a tree that they spell, or refused. -/
theorem ofTokens_cases {tokens : List Token} (nonempty : tokens ≠ []) :
    (∃ e, Expr.ofTokens tokens = .ok (some e) ∧ Derives .assignment false tokens e) ∨
    ∃ error, Expr.ofTokens tokens = .error error ∧
      ((∀ token ∈ tokens, token.IsLexical) → error.IsSyntactic) := by
  have outcome := outcome_of_start tokens
  have started : (Reading.start tokens).tokens ≠ [] := nonempty
  rw [Expr.ofTokens, Reading.statement, if_neg started]
  simp only [Reading.expression, Reading.withProgress, Reading.start]
  revert outcome
  cases readOperand .expression false 0 tokens .start with
  | error failure => exact fun syntactic => .inr ⟨failure.1, rfl, syntactic⟩
  | ok p =>
    rintro ⟨spelled, e, whole, final, derives⟩
    obtain ⟨rest, s⟩ := p
    obtain rfl : s = ⟨[.sentinel], [e]⟩ := final
    cases rest with
    | nil =>
      obtain rfl : spelled = tokens := by simpa using whole
      exact .inl ⟨e, rfl, derives⟩
    | cons token rest => exact .inr ⟨.trailing token, rfl, fun _ => trivial⟩

theorem ofTokens_eq_none_iff {tokens : List Token} :
    Expr.ofTokens tokens = .ok none ↔ tokens = [] := by
  constructor
  · intro read
    by_contra nonempty
    rcases ofTokens_cases nonempty with ⟨e, result, _⟩ | ⟨error, result, _⟩
    · rw [result] at read
      cases read
    · rw [result] at read
      cases read
  · rintro rfl
    rfl

theorem derives_of_ofTokens {tokens : List Token} {e : Expr}
    (read : Expr.ofTokens tokens = .ok (some e)) : Derives .assignment false tokens e := by
  have nonempty : tokens ≠ [] := by
    rintro rfl
    cases read
  rcases ofTokens_cases nonempty with ⟨e', result, derives⟩ | ⟨error, result, _⟩
  · rw [result] at read
    cases read
    exact derives
  · rw [result] at read
    cases read

/-- Scanned tokens are refused for a fault of syntax only. -/
theorem isSyntactic_of_ofTokens {tokens : List Token} {error : ParseError}
    (lexical : ∀ token ∈ tokens, token.IsLexical) (refused : Expr.ofTokens tokens = .error error) :
    error.IsSyntactic := by
  have nonempty : tokens ≠ [] := by
    rintro rfl
    cases refused
  rcases ofTokens_cases nonempty with ⟨e, result, _⟩ | ⟨error', result, syntactic⟩
  · rw [result] at refused
    cases refused
  · rw [result] at refused
    cases refused
    exact syntactic lexical

/-- A list of tokens is read as a tree exactly when the grammar derives the tree from it. -/
theorem ofTokens_eq_some_iff {tokens : List Token} {e : Expr} :
    Expr.ofTokens tokens = .ok (some e) ↔ Derives .assignment false tokens e :=
  ⟨derives_of_ofTokens, ofTokens_of_derives⟩

end Calculator
