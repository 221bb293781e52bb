import Calculator.Proofs.Evaluation.Substitution
import Calculator.Proofs.Reading.Trees

/-!
# Variables and their expressions

A variable stands for the number of an expression exactly as the expression in parentheses does.
In the tokens the parentheses make a primary of the expression, so that it takes the place of a
name under any operator; in the tree it takes the place of the node; and evaluation finds the
same number there.

## Main result

`inlining_preserves_statements`: binding a name to a number and writing the expression in its
place are the same, from the tokens to the value or the fault.

## Proof strategy

The substitution goes along the derivation of the tokens, case by case. Only names change, and a
parenthesised expression is an atom as a name is.
-/

namespace Calculator

def Token.IsName (name : String) (token : Token) : Prop :=
  token.kind = .identifier ∧ token.text = name

instance (name : String) (token : Token) : Decidable (token.IsName name) :=
  inferInstanceAs (Decidable (_ ∧ _))

private theorem TokenKind.ne_identifier_of_binaryOperator? {kind : TokenKind} {op : Operator}
    (spelled : kind.binaryOperator? = some op) : kind ≠ .identifier := by
  rintro rfl
  cases spelled

/-- No token of the given name follows the keyword. -/
def Undeclared (name : String) (tokens : List Token) : Prop :=
  ∀ keyword token, [keyword, token] <:+: tokens → keyword.kind = .letWord → ¬token.IsName name

/-- A name with the parenthesised tokens that are to stand in its place, and their tree. -/
structure Inlining where
  name : String
  opening : Token
  tokens : List Token
  closing : Token
  tree : Expr
  opens : opening.kind = .leftParen
  closes : closing.kind = .rightParen
  read : Expr.ofTokens tokens = .ok (some tree)

namespace Inlining

def inlineToken (inlining : Inlining) (token : Token) : List Token :=
  if token.IsName inlining.name then inlining.opening :: (inlining.tokens ++ [inlining.closing])
  else [token]

/-- The tokens with the parenthesised ones in the place of each token of the name. -/
def inline (inlining : Inlining) (tokens : List Token) : List Token :=
  tokens.flatMap inlining.inlineToken

def inlineTree (inlining : Inlining) (e : Expr) : Expr :=
  e.substitute inlining.name inlining.tree

variable (inlining : Inlining)

theorem inline_append (before after : List Token) :
    inlining.inline (before ++ after) = inlining.inline before ++ inlining.inline after := by
  simp only [inline, List.flatMap_append]

theorem inline_cons {token : Token} (other : token.kind ≠ .identifier) (rest : List Token) :
    inlining.inline (token :: rest) = token :: inlining.inline rest := by
  have unchanged : inlining.inlineToken token = [token] := if_neg fun named => other named.1
  simp only [inline, List.flatMap_cons, unchanged, List.singleton_append]

private theorem inline_name {token : Token} (identifier : token.kind = .identifier)
    (named : token.text = inlining.name) :
    inlining.inline [token] = inlining.opening :: (inlining.tokens ++ [inlining.closing]) := by
  have replaced : inlining.inlineToken token = _ := if_pos ⟨identifier, named⟩
  simp only [inline, List.flatMap_cons, List.flatMap_nil, replaced, List.append_nil]

private theorem inline_other {token : Token} (named : token.text ≠ inlining.name) :
    inlining.inline [token] = [token] := by
  have unchanged : inlining.inlineToken token = [token] := if_neg fun name => named name.2
  simp only [inline, List.flatMap_cons, List.flatMap_nil, unchanged, List.append_nil]

private theorem inline_singleton {token : Token} (other : token.kind ≠ .identifier) :
    inlining.inline [token] = [token] :=
  inlining.inline_cons other []

end Inlining

namespace Undeclared

private theorem of_infix {name : String} {part tokens : List Token}
    (undeclared : Undeclared name tokens) (inside : part <:+: tokens) : Undeclared name part :=
  fun keyword token adjacent => undeclared keyword token (adjacent.trans inside)

variable {name : String} {before after : List Token} {token : Token}

theorem left (undeclared : Undeclared name (before ++ token :: after)) : Undeclared name before :=
  undeclared.of_infix (List.prefix_append _ _).isInfix

theorem right (undeclared : Undeclared name (before ++ token :: after)) : Undeclared name after :=
  undeclared.of_infix ⟨before ++ [token], [], by simp⟩

end Undeclared

/-- A phrase stays a phrase of its kind when the name is inlined. -/
theorem Derives.inline (inlining : Inlining) {phrase : Phrase} {negated : Bool}
    {tokens : List Token} {e : Expr} (derives : Derives phrase negated tokens e)
    (undeclared : Undeclared inlining.name tokens) (untargeted : e.Untargeted inlining.name) :
    Derives phrase negated (inlining.inline tokens) (inlining.inlineTree e) := by
  induction derives with
  | @name negated token identifier =>
    -- A parenthesised expression is an atom wherever the name was one, under any sign.
    by_cases named : token.text = inlining.name
    · rw [inlining.inline_name identifier named, Inlining.inlineTree, named,
        Expr.substitute_identifier_self]
      exact .parentheses inlining.opens inlining.closes (derives_of_ofTokens inlining.read)
    · rw [inlining.inline_other named, Inlining.inlineTree, Expr.substitute_identifier_of_ne named]
      exact .name identifier
  | @letName negated keyword token word identifier =>
    have named : token.text ≠ inlining.name := fun equal =>
      undeclared keyword token (List.infix_refl _) word ⟨identifier, equal⟩
    rw [inlining.inline_cons (by rw [word]; decide), inlining.inline_other named,
      Inlining.inlineTree, Expr.substitute_identifier_of_ne named]
    exact .letName word identifier
  | integer kind value range =>
    rw [inlining.inline_singleton (by rw [kind]; decide)]
    exact .integer kind value range
  | real kind value =>
    rw [inlining.inline_singleton (by rw [kind]; decide)]
    exact .real kind value
  | parentheses opens closes inner ih =>
    rw [inlining.inline_cons (by rw [opens]; decide), inlining.inline_append,
      inlining.inline_singleton (by rw [closes]; decide)]
    exact .parentheses opens closes (ih (undeclared.of_infix ⟨[_], [_], rfl⟩) untargeted)
  | ofAtom _ ih => exact .ofAtom (ih undeclared untargeted)
  | raise left power right ihLeft ihRight =>
    rw [inlining.inline_append, inlining.inline_cons (by rw [power]; decide)]
    exact .raise (ihLeft undeclared.left untargeted.2.1) power
      (ihRight undeclared.right untargeted.2.2)
  | ofChain _ ih => exact .ofChain (ih undeclared untargeted)
  | raiseNegated left power minus right ihLeft ihRight =>
    rw [inlining.inline_append, inlining.inline_cons (by rw [power]; decide),
      inlining.inline_cons (by rw [minus]; decide)]
    exact .raiseNegated (ihLeft undeclared.left untargeted.2.1) power minus
      (ihRight (undeclared.right.of_infix (List.suffix_cons _ _).isInfix) untargeted.2.2)
  | ofPower _ ih => exact .ofPower (ih undeclared untargeted)
  | negation minus operand ih =>
    rw [inlining.inline_cons (by rw [minus]; decide)]
    exact .negation minus (ih (undeclared.of_infix (List.suffix_cons _ _).isInfix) untargeted)
  | ofUnary _ ih => exact .ofUnary (ih undeclared untargeted)
  | product left spelled family right ihLeft ihRight =>
    rw [inlining.inline_append,
      inlining.inline_cons (TokenKind.ne_identifier_of_binaryOperator? spelled)]
    exact .product (ihLeft undeclared.left untargeted.2.1) spelled family
      (ihRight undeclared.right untargeted.2.2)
  | ofProduct _ ih => exact .ofProduct (ih undeclared untargeted)
  | sum left spelled family right ihLeft ihRight =>
    rw [inlining.inline_append,
      inlining.inline_cons (TokenKind.ne_identifier_of_binaryOperator? spelled)]
    exact .sum (ihLeft undeclared.left untargeted.2.1) spelled family
      (ihRight undeclared.right untargeted.2.2)
  | ofSum _ ih => exact .ofSum (ih undeclared untargeted)
  | @assignment token ls rs x r target equals right ihLeft ihRight =>
    -- The target is another name, so that the left side keeps it as its tree.
    have named : x ≠ inlining.name := fun equal => untargeted.1 rfl (by rw [equal])
    have name := ihLeft undeclared.left untargeted.2.1
    rw [Inlining.inlineTree, Expr.substitute_identifier_of_ne named] at name
    rw [inlining.inline_append, inlining.inline_cons (by rw [equals]; decide), Inlining.inlineTree,
      Expr.substitute, Expr.substitute_identifier_of_ne named]
    exact .assignment name equals (ihRight undeclared.right untargeted.2.2)

/-- Binding a name is inlining its expression. Where no token of the name follows the keyword
and no assignment has it as its target, the tokens with the parenthesised expression in its place
have the tree with that tree in its place. That tree answers as the first one does where the name
has the number of the expression, and an assignment gives its target the same number in both. -/
theorem inlining_preserves_statements (inlining : Inlining) {env : Environment} {v : Number}
    {tokens : List Token} {e : Expr} (value : inlining.tree.execute env = .ok (.number v, env))
    (read : Expr.ofTokens tokens = .ok (some e)) (undeclared : Undeclared inlining.name tokens)
    (untargeted : e.Untargeted inlining.name) :
    Expr.ofTokens (inlining.inline tokens) = .ok (some (inlining.inlineTree e)) ∧
    ((inlining.inlineTree e).execute env).map Prod.fst
      = (e.execute (env.assign inlining.name v)).map Prod.fst ∧
    (e.isAssignment = true → ∃ x, x ≠ inlining.name ∧
      ((∃ w, (inlining.inlineTree e).execute env = .ok (.unit, env.assign x w) ∧
        e.execute (env.assign inlining.name v)
          = .ok (.unit, (env.assign inlining.name v).assign x w)) ∨
      ∃ fault, (inlining.inlineTree e).execute env = .error fault ∧
        e.execute (env.assign inlining.name v) = .error fault)) := by
  have derives := derives_of_ofTokens read
  have number : inlining.tree.evaluate env = .ok v := by
    rcases Expr.execute_eq_ok value with ⟨_, _, w, equal, evaluated⟩ | ⟨_, _, _, _, unit, _⟩
    · cases equal
      exact evaluated
    · cases unit
  refine ⟨ofTokens_of_derives (derives.inline inlining undeclared untargeted), ?_⟩
  cases root : e.isAssignment with
  | false =>
    refine ⟨?_, fun assigns => ?_⟩
    · rw [Inlining.inlineTree, Expr.execute_substitute number root,
        Expr.execute_of_isAssignment_eq_false _ root]
      cases e.evaluate (env.assign inlining.name v) <;> rfl
    · cases assigns
  | true =>
    -- The target stays as it is, so that only the right side is substituted.
    obtain ⟨x, r, rfl⟩ := Expr.exists_target derives.wellFormed root
    have different : x ≠ inlining.name := fun equal => untargeted.1 rfl (by rw [equal])
    rw [Inlining.inlineTree, Expr.execute_substitute_assign number different, Expr.execute_assign]
    cases r.evaluate (env.assign inlining.name v) with
    | error fault => exact ⟨rfl, fun _ => ⟨x, different, .inr ⟨fault, rfl, rfl⟩⟩⟩
    | ok w => exact ⟨rfl, fun _ => ⟨x, different, .inl ⟨w, rfl, rfl⟩⟩⟩

/-- The parenthesised tokens of `- a` in the place of `x`. -/
def negatedInlining : Inlining where
  name := "x"
  opening := ⟨.leftParen, "(", 1⟩
  tokens := [⟨.minus, "-", 2⟩, ⟨.identifier, "a", 4⟩]
  closing := ⟨.rightParen, ")", 5⟩
  tree := .unary .negate (.identifier "a")
  opens := rfl
  closes := rfl
  read := rfl

/-- The tokens of `let y = - x ^ x`. -/
def signedPower : List Token :=
  [⟨.letWord, "let", 1⟩, ⟨.identifier, "y", 5⟩, ⟨.equals, "=", 7⟩, ⟨.minus, "-", 9⟩,
   ⟨.identifier, "x", 11⟩, ⟨.caret, "^", 13⟩, ⟨.identifier, "x", 15⟩]

/-- The sign before a name applies to the whole power, and the sign of the inlined expression
stays within its parentheses. -/
theorem inlining_under_sign :
    Expr.ofTokens (negatedInlining.inline signedPower)
      = .ok (some (.binary .assign (.identifier "y") (.unary .negate (.binary .power
        (.unary .negate (.identifier "a")) (.unary .negate (.identifier "a")))))) := by
  have value : negatedInlining.tree.execute (Environment.empty.assign "a" (.integer (-3)))
      = .ok (.number (.integer 3), Environment.empty.assign "a" (.integer (-3))) := rfl
  have read : Expr.ofTokens signedPower = .ok (some (.binary .assign (.identifier "y")
      (.unary .negate (.binary .power (.identifier "x") (.identifier "x"))))) := rfl
  refine (inlining_preserves_statements negatedInlining value read ?_ ?_).1
  · intro keyword token adjacent word named
    simp [signedPower, List.infix_cons_iff] at adjacent
    -- Only the first pair begins with the keyword, and its name is another one.
    rcases adjacent with ⟨_, rfl⟩ | ⟨rfl, _⟩ | ⟨rfl, _⟩ | ⟨rfl, _⟩ | ⟨rfl, _⟩ | ⟨rfl, _⟩
    · exact absurd named.2 (by decide)
    all_goals cases word
  · simp [Expr.Untargeted, negatedInlining]

end Calculator
