import Calculator.Token

/-!
# The outline of an expression

An expression is primaries with binary operators between them. Which operator takes which
operands is left open, and so is the value of a literal: only the kinds of the tokens count.

After the beginning of an expression an operand or an operator comes next, inside a number of open
parentheses. What may follow then is a language of its own, and one more token takes it to the
next one.

## Main results

- `begins_cons_iff`, `completes_cons_iff`: what may follow after one more token.
- `exists_begins`, `exists_completes`: something may always follow.
-/

namespace Calculator.Outline

def binaryOperators : List TokenKind :=
  [.plus, .minus, .star, .slash, .caret, .equals]

mutual

/-- A name, which may follow the keyword, a literal, an expression in parentheses, or a primary
after a minus sign. -/
inductive Primary : List TokenKind → Prop
  | name : Primary [.identifier]
  | letName : Primary [.letWord, .identifier]
  | integer : Primary [.integer]
  | real : Primary [.real]
  | parentheses {inner : List TokenKind} (expression : Expression inner) :
      Primary (.leftParen :: (inner ++ [.rightParen]))
  | negation {operand : List TokenKind} (primary : Primary operand) :
      Primary (.minus :: operand)

/-- A primary and all that continues it. -/
inductive Expression : List TokenKind → Prop
  | intro {first others : List TokenKind} (primary : Primary first) (tail : Tail others) :
      Expression (first ++ others)

inductive Tail : List TokenKind → Prop
  | nil : Tail []
  | cons {op : TokenKind} {operand others : List TokenKind} (binary : op ∈ binaryOperators)
      (primary : Primary operand) (tail : Tail others) : Tail (op :: (operand ++ others))

end

/-- The tokens complete an expression after a primary in so many open parentheses. -/
def Completes : Nat → List TokenKind → Prop
  | 0, kinds => Tail kinds
  | depth + 1, kinds => ∃ others rest, kinds = others ++ .rightParen :: rest ∧ Tail others ∧
      Completes depth rest

/-- The tokens complete an expression where a primary is due in so many open parentheses. -/
def Begins (depth : Nat) (kinds : List TokenKind) : Prop :=
  ∃ operand rest, kinds = operand ++ rest ∧ Primary operand ∧ Completes depth rest

variable {depth : Nat} {kind : TokenKind} {kinds : List TokenKind}

theorem expression_iff_begins : Expression kinds ↔ Begins 0 kinds := by
  constructor
  · rintro ⟨primary, tail⟩
    exact ⟨_, _, rfl, primary, tail⟩
  · rintro ⟨operand, rest, rfl, primary, tail⟩
    exact .intro primary tail

theorem binaryOperator?_eq_none_iff : kind.binaryOperator? = none ↔ kind ∉ binaryOperators := by
  cases kind <;> simp [TokenKind.binaryOperator?, binaryOperators]

theorem mem_binaryOperators {op : Operator} (spelled : kind.binaryOperator? = some op) :
    kind ∈ binaryOperators := by
  apply Decidable.byContradiction
  intro other
  rw [binaryOperator?_eq_none_iff.mpr other] at spelled
  cases spelled

/-! ### One more token -/

theorem not_begins_nil : ¬Begins depth [] := by
  rintro ⟨operand, rest, empty, primary, _⟩
  obtain ⟨rfl, rfl⟩ := List.append_eq_nil_iff.mp empty.symm
  cases primary

theorem completes_nil_iff : Completes depth [] ↔ depth = 0 := by
  cases depth with
  | zero => exact ⟨fun _ => rfl, fun _ => .nil⟩
  | succ depth => simp [Completes]

private theorem tail_cons_iff : Tail (kind :: kinds) ↔ kind ∈ binaryOperators ∧ Begins 0 kinds := by
  constructor
  · rintro (_ | ⟨binary, primary, tail⟩)
    exact ⟨binary, _, _, rfl, primary, tail⟩
  · rintro ⟨binary, operand, rest, rfl, primary, tail⟩
    exact .cons binary primary tail

theorem completes_cons_iff : Completes depth (kind :: kinds) ↔
    (kind ∈ binaryOperators ∧ Begins depth kinds) ∨
    (kind = .rightParen ∧ ∃ outer, depth = outer + 1 ∧ Completes outer kinds) := by
  cases depth with
  | zero => simp [Completes, tail_cons_iff]
  | succ depth =>
    constructor
    · rintro ⟨others, rest, split, tail, completes⟩
      -- The token closes the parenthesis if the tail before it is empty, and begins it otherwise.
      cases tail with
      | nil =>
        cases split
        exact .inr ⟨rfl, depth, rfl, completes⟩
      | cons binary primary tail =>
        cases split
        exact .inl ⟨binary, _, _, List.append_assoc .., primary, _, _, rfl, tail, completes⟩
    · rintro (⟨binary, operand, _, rfl, primary, others, rest, rfl, tail, completes⟩ |
        ⟨rfl, outer, deeper, completes⟩)
      · exact ⟨_, rest, by simp, .cons binary primary tail, completes⟩
      · cases deeper
        exact ⟨[], kinds, rfl, .nil, completes⟩

theorem begins_cons_iff : Begins depth (kind :: kinds) ↔
    (kind ∈ [.identifier, .integer, .real] ∧ Completes depth kinds) ∨
    (kind = .letWord ∧ ∃ rest, kinds = .identifier :: rest ∧ Completes depth rest) ∨
    (kind = .leftParen ∧ Begins (depth + 1) kinds) ∨
    (kind = .minus ∧ Begins depth kinds) := by
  constructor
  · rintro ⟨operand, rest, split, primary, completes⟩
    cases primary with
    | name | integer | real =>
      cases split
      exact .inl ⟨by simp, completes⟩
    | letName =>
      cases split
      exact .inr (.inl ⟨rfl, rest, rfl, completes⟩)
    | parentheses expression =>
      -- The expression inside is completed one level deeper, up to its own parenthesis.
      obtain ⟨primary, tail⟩ := expression
      cases split
      exact .inr (.inr (.inl ⟨rfl, _, _, by simp, primary, _, rest, rfl, tail, completes⟩))
    | negation primary =>
      cases split
      exact .inr (.inr (.inr ⟨rfl, _, rest, rfl, primary, completes⟩))
  · rintro (⟨single, completes⟩ | ⟨rfl, rest, rfl, completes⟩ |
      ⟨rfl, operand, _, rfl, primary, others, rest, rfl, tail, completes⟩ |
      ⟨rfl, operand, rest, rfl, primary, completes⟩)
    · have primary : Primary [kind] := by
        simp only [List.mem_cons, List.not_mem_nil, or_false] at single
        rcases single with rfl | rfl | rfl
        · exact .name
        · exact .integer
        · exact .real
      exact ⟨[kind], kinds, rfl, primary, completes⟩
    · exact ⟨_, rest, rfl, .letName, completes⟩
    · exact ⟨_, rest, by simp, .parentheses (.intro primary tail), completes⟩
    · exact ⟨_, rest, rfl, .negation primary, completes⟩

/-! ### Something may follow -/

theorem exists_completes (depth : Nat) : ∃ kinds, Completes depth kinds := by
  induction depth with
  | zero => exact ⟨[], .nil⟩
  | succ depth ih =>
    obtain ⟨rest, completes⟩ := ih
    exact ⟨.rightParen :: rest, completes_cons_iff.mpr (.inr ⟨rfl, depth, rfl, completes⟩)⟩

theorem exists_begins (depth : Nat) : ∃ kinds, Begins depth kinds := by
  obtain ⟨rest, completes⟩ := exists_completes depth
  exact ⟨.identifier :: rest, begins_cons_iff.mpr (.inl ⟨by simp, completes⟩)⟩

end Calculator.Outline
