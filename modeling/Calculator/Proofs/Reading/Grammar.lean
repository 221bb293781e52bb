import Calculator.Expr.Reading

/-!
# The grammar of statements

A statement is an assignment; assignments, sums, products, signs and powers are phrases of
increasing tightness. Sums and products group to the left, assignments to the right. A power
is a chain of atoms that groups to the left; only its last exponent may have a sign, and the
operand of that sign is a whole power again. No ranks and no stacks appear here: the order of
the phrases alone decides which tree a list of tokens spells.
-/

namespace Calculator

/-- The phrases of the grammar, from the loosest to the tightest. A chain is a power
without its signed exponent. -/
inductive Phrase where
  | assignment
  | sum
  | product
  | unary
  | power
  | chain
  | atom
  deriving DecidableEq, Repr

/-- No operator outside the parentheses of a phrase has a lower rank. -/
def Phrase.rank : Phrase → Nat
  | assignment => 1
  | sum => 2
  | product => 3
  | unary | power => 4
  | chain => 5
  | atom => 6

theorem Phrase.one_le_rank (phrase : Phrase) : 1 ≤ phrase.rank := by
  cases phrase <;> decide

/-- The tokens spell a tree as a phrase. The flag tells that a prefix minus stands directly
before them: only there may an integer literal exceed the largest integer. -/
inductive Derives : Phrase → Bool → List Token → Expr → Prop
  | name {negated : Bool} {token : Token} (identifier : token.kind = .identifier) :
      Derives .atom negated [token] (.identifier token.text)
  | letName {negated : Bool} {keyword token : Token} (word : keyword.kind = .letWord)
      (identifier : token.kind = .identifier) :
      Derives .atom negated [keyword, token] (.identifier token.text)
  | integer {negated : Bool} {token : Token} {n : Int} (kind : token.kind = .integer)
      (value : token.integer? = some n) (range : n ≤ largestInteger ∨ negated = true) :
      Derives .atom negated [token] (.integer n)
  | real {negated : Bool} {token : Token} {x : Binary} (kind : token.kind = .real)
      (value : token.real? = some x) : Derives .atom negated [token] (.real x)
  | parentheses {negated : Bool} {opening closing : Token} {tokens : List Token} {e : Expr}
      (opens : opening.kind = .leftParen) (closes : closing.kind = .rightParen)
      (inner : Derives .assignment false tokens e) :
      Derives .atom negated (opening :: (tokens ++ [closing])) e
  | ofAtom {negated : Bool} {tokens : List Token} {e : Expr}
      (atom : Derives .atom negated tokens e) : Derives .chain negated tokens e
  | raise {negated : Bool} {caret : Token} {base exponent : List Token} {l r : Expr}
      (left : Derives .chain negated base l) (power : caret.kind = .caret)
      (right : Derives .atom false exponent r) :
      Derives .chain negated (base ++ caret :: exponent) (.binary .power l r)
  | ofChain {negated : Bool} {tokens : List Token} {e : Expr}
      (chain : Derives .chain negated tokens e) : Derives .power negated tokens e
  | raiseNegated {negated : Bool} {caret sign : Token} {base exponent : List Token} {l r : Expr}
      (left : Derives .chain negated base l) (power : caret.kind = .caret)
      (minus : sign.kind = .minus) (right : Derives .unary true exponent r) :
      Derives .power negated (base ++ caret :: sign :: exponent)
        (.binary .power l (.unary .negate r))
  | ofPower {negated : Bool} {tokens : List Token} {e : Expr}
      (power : Derives .power negated tokens e) : Derives .unary negated tokens e
  | negation {negated : Bool} {sign : Token} {tokens : List Token} {e : Expr}
      (minus : sign.kind = .minus) (operand : Derives .unary true tokens e) :
      Derives .unary negated (sign :: tokens) (.unary .negate e)
  | ofUnary {tokens : List Token} {e : Expr} (unary : Derives .unary false tokens e) :
      Derives .product false tokens e
  | product {op : Operator} {token : Token} {ls rs : List Token} {l r : Expr}
      (left : Derives .product false ls l) (spelled : token.kind.binaryOperator? = some op)
      (family : op = .multiply ∨ op = .divide) (right : Derives .unary false rs r) :
      Derives .product false (ls ++ token :: rs) (.binary op l r)
  | ofProduct {tokens : List Token} {e : Expr} (product : Derives .product false tokens e) :
      Derives .sum false tokens e
  | sum {op : Operator} {token : Token} {ls rs : List Token} {l r : Expr}
      (left : Derives .sum false ls l) (spelled : token.kind.binaryOperator? = some op)
      (family : op = .plus ∨ op = .minus) (right : Derives .product false rs r) :
      Derives .sum false (ls ++ token :: rs) (.binary op l r)
  | ofSum {tokens : List Token} {e : Expr} (sum : Derives .sum false tokens e) :
      Derives .assignment false tokens e
  | assignment {token : Token} {ls rs : List Token} {x : String} {r : Expr}
      (target : Derives .sum false ls (.identifier x)) (equals : token.kind = .equals)
      (right : Derives .assignment false rs r) :
      Derives .assignment false (ls ++ token :: rs) (.binary .assign (.identifier x) r)

namespace Derives

variable {phrase : Phrase} {negated : Bool} {tokens : List Token} {e : Expr}

theorem tokens_ne_nil (derives : Derives phrase negated tokens e) : tokens ≠ [] := by
  induction derives <;> simp_all

/-- Only unary phrases and tighter ones follow a prefix minus directly. -/
theorem negated_eq_false (derives : Derives phrase negated tokens e) (loose : phrase.rank ≤ 3) :
    negated = false := by
  cases derives <;> first | rfl | exact absurd loose (by decide)

theorem toUnary (derives : Derives phrase negated tokens e) (tight : 4 ≤ phrase.rank) :
    Derives .unary negated tokens e := by
  cases phrase with
  | assignment | sum | product => exact absurd tight (by decide)
  | unary => exact derives
  | power => exact .ofPower derives
  | chain => exact .ofPower (.ofChain derives)
  | atom => exact .ofPower (.ofChain (.ofAtom derives))

theorem toProduct (derives : Derives phrase false tokens e) (tight : 3 ≤ phrase.rank) :
    Derives .product false tokens e := by
  by_cases unary : 4 ≤ phrase.rank
  · exact .ofUnary (derives.toUnary unary)
  · cases phrase with
    | product => exact derives
    | assignment | sum => exact absurd tight (by decide)
    | unary | power | chain | atom => exact absurd (by decide) unary

theorem toSum (derives : Derives phrase false tokens e) (tight : 2 ≤ phrase.rank) :
    Derives .sum false tokens e := by
  by_cases product : 3 ≤ phrase.rank
  · exact .ofProduct (derives.toProduct product)
  · cases phrase with
    | sum => exact derives
    | assignment => exact absurd tight (by decide)
    | product | unary | power | chain | atom => exact absurd (by decide) product

theorem toAssignment (derives : Derives phrase false tokens e) :
    Derives .assignment false tokens e := by
  by_cases sum : 2 ≤ phrase.rank
  · exact .ofSum (derives.toSum sum)
  · cases phrase with
    | assignment => exact derives
    | sum | product | unary | power | chain | atom => exact absurd (by decide) sum

/-- A power begins with an atom, and no atom begins with a sign. -/
theorem kind_head_ne_minus (derives : Derives phrase negated tokens e)
    (tight : phrase = .power ∨ phrase = .chain ∨ phrase = .atom) {first : Token}
    (head : tokens.head? = some first) : first.kind ≠ .minus := by
  induction derives with
  | name identifier =>
    cases head
    simp [identifier]
  | letName word _ =>
    cases head
    simp [word]
  | integer kind | real kind =>
    cases head
    simp [kind]
  | parentheses opens =>
    cases head
    simp [opens]
  | ofAtom _ ih => exact ih (.inr (.inr rfl)) head
  | ofChain _ ih => exact ih (.inr (.inl rfl)) head
  | raise left _ _ ih | raiseNegated left _ _ _ ih =>
    obtain ⟨_, _, rfl⟩ := List.exists_cons_of_ne_nil left.tokens_ne_nil
    exact ih (.inr (.inl rfl)) head
  | ofPower | negation | ofUnary | product | ofProduct | sum | ofSum | assignment =>
    simp at tight

/-- What begins with a sign is its negation. -/
theorem of_sign {sign : Token} (derives : Derives .unary negated (sign :: tokens) e)
    (minus : sign.kind = .minus) :
    ∃ operand, e = .unary .negate operand ∧ Derives .unary true tokens operand := by
  cases derives with
  | ofPower power => exact absurd minus (power.kind_head_ne_minus (.inl rfl) rfl)
  | negation _ operand => exact ⟨_, rfl, operand⟩

/-- A phrase without a sign before it is also any looser binary phrase. -/
theorem loosen {target : Phrase} (derives : Derives phrase false tokens e)
    (binary : target.rank ≤ 3) (looser : target.rank ≤ phrase.rank) :
    Derives target false tokens e := by
  cases target with
  | assignment => exact derives.toAssignment
  | sum => exact derives.toSum looser
  | product => exact derives.toProduct looser
  | unary | power | chain | atom => exact absurd binary (by decide)

end Derives

end Calculator
