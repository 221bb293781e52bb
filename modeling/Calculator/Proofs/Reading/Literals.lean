import Calculator.Proofs.Evaluation.Width
import Calculator.Proofs.Expr.Json
import Calculator.Proofs.Reading.Trees
import Calculator.Proofs.Token.Cutting

/-!
# Literals in the trees of statements

Reading copies literals into the tree. A real goes there as it is. An integer of a scanned text
has at most the magnitude of the smallest integer, and that magnitude only behind a prefix minus.
The sign however takes the whole power that begins at the literal, so that the literal may become
the base of a power, where no sign repairs what evaluation wraps.

## Main result

`magnitudes_fit_unless_raised`: the largest magnitude stands in the tree directly under a sign or
as the first base of a signed power. It stands nowhere but directly under a sign, and all integer
operands are evaluated to what they spell, exactly when no literal of that magnitude is followed by
the operator of powers.
-/

namespace Calculator

private theorem TokenKind.ne_integer_of_binaryOperator? {kind : TokenKind} {op : Operator}
    (spelled : kind.binaryOperator? = some op) : kind ≠ .integer := by
  rintro rfl
  cases spelled

private theorem TokenKind.ne_real_of_binaryOperator? {kind : TokenKind} {op : Operator}
    (spelled : kind.binaryOperator? = some op) : kind ≠ .real := by
  rintro rfl
  cases spelled

private theorem TokenKind.eq_caret_iff {kind : TokenKind} {op : Operator}
    (spelled : kind.binaryOperator? = some op) : kind = .caret ↔ op = .power := by
  cases kind <;> cases spelled <;> decide

/-! ### Reals -/

/-- The reals of a tree are those that its tokens spell. -/
theorem Derives.everyReal_iff {phrase : Phrase} {negated : Bool} {tokens : List Token} {e : Expr}
    (derives : Derives phrase negated tokens e) (P : Binary → Prop) :
    e.EveryReal P ↔ ∀ token ∈ tokens, token.kind = .real → ∃ x, token.real? = some x ∧ P x := by
  -- Every token of a phrase belongs to one of its parts, or is no literal.
  induction derives with
  | name kind | letName word kind => simp [Expr.EveryReal, *]
  | integer kind value range => simp [Expr.EveryReal, kind]
  | real kind value => simp [Expr.EveryReal, kind, value]
  | parentheses opens closes inner ih => simp [ih, opens, closes, or_imp, forall_and]
  | ofAtom _ ih | ofChain _ ih | ofPower _ ih | ofUnary _ ih | ofProduct _ ih | ofSum _ ih =>
    exact ih
  | raise left power right ihLeft ihRight =>
    simp [Expr.EveryReal, ihLeft, ihRight, power, or_imp, forall_and]
  | raiseNegated left power minus right ihLeft ihRight =>
    simp [Expr.EveryReal, ihLeft, ihRight, power, minus, or_imp, forall_and]
  | negation minus operand ih => simp [Expr.EveryReal, ih, minus]
  | product left spelled family right ihLeft ihRight
  | sum left spelled family right ihLeft ihRight =>
    simp [Expr.EveryReal, ihLeft, ihRight, TokenKind.ne_real_of_binaryOperator? spelled, or_imp,
      forall_and]
  | assignment target equals right ihTarget ihRight =>
    simp [Expr.EveryReal, ← ihTarget, ihRight, equals, or_imp, forall_and]

/-- A datum of the single format is one of the double format. -/
theorem Format.round_double_of_single {x : Binary} (fits : single.round x = x) :
    double.round x = x := by
  cases x with
  | negativeZero | infinity | nan => rfl
  | number q =>
    by_cases zero : q = 0
    · rw [zero]
      exact ofRat_zero double
    · exact ofRat_double_of_single zero fits

private theorem Token.round_of_real? {token : Token} {x : Binary} (value : token.real? = some x) :
    Format.double.round x = x := by
  obtain ⟨⟨negative, d⟩, _, rfl⟩ := Option.map_eq_some_iff.mp value
  exact Format.round_double_of_single (Format.round_round (by decide) _)

/-- The trees of scanned texts hold data of the double format only. -/
theorem holdsDoubles_of_ofTokens {tokens : List Token} {e : Expr}
    (lexical : ∀ token ∈ tokens, token.IsLexical)
    (read : Expr.ofTokens tokens = .ok (some e)) : e.HoldsDoubles := by
  apply ((derives_of_ofTokens read).everyReal_iff _).mpr
  intro token member kind
  obtain ⟨x, value⟩ := Token.real?_of_isLexical (lexical token member) kind
  exact ⟨x, value, Token.round_of_real? value⟩

/-! ### Integers -/

namespace Token

def IsMagnitude (token : Token) : Prop :=
  token.kind = .integer → ∀ n, token.integer? = some n → 0 ≤ n ∧ n ≤ largestInteger + 1

def IsSmall (token : Token) : Prop :=
  token.kind = .integer → ∀ n, token.integer? = some n → n ≤ largestInteger

/-- Before the operator of powers an integer is small. -/
def RaisesSmall (base next : Token) : Prop :=
  next.kind = .caret → base.IsSmall

variable {token next : Token}

private theorem isSmall_of_ne_integer (other : token.kind ≠ .integer) : token.IsSmall :=
  fun kind => absurd kind other

private theorem raisesSmall_of_ne_caret (other : next.kind ≠ .caret) : token.RaisesSmall next :=
  fun caret => absurd caret other

/-- What is no integer raises none. -/
private theorem isChain_cons_iff {rs : List Token} (other : token.kind ≠ .integer) :
    (token :: rs).IsChain RaisesSmall ↔ rs.IsChain RaisesSmall := by
  rw [List.isChain_cons]
  exact and_iff_right fun _ _ _ => isSmall_of_ne_integer other

/-- Before the operator of powers the list has to end with a small integer. -/
private theorem isChain_append_caret_iff {ls rs : List Token} (caret : token.kind = .caret) :
    (ls ++ token :: rs).IsChain RaisesSmall ↔
      (ls.IsChain RaisesSmall ∧ ∀ last ∈ ls.getLast?, last.IsSmall) ∧ rs.IsChain RaisesSmall := by
  have other : token.kind ≠ .integer := by simp [caret]
  simp only [List.isChain_append, List.head?_cons, Option.mem_some_iff, forall_eq', RaisesSmall,
    caret, true_imp_iff, isChain_cons_iff other]
  tauto

/-- Any other operator raises nothing. -/
private theorem isChain_append_iff {ls rs : List Token} (other : token.kind ≠ .integer)
    (noCaret : token.kind ≠ .caret) :
    (ls ++ token :: rs).IsChain RaisesSmall ↔
      ls.IsChain RaisesSmall ∧ rs.IsChain RaisesSmall := by
  simp only [List.isChain_append, List.head?_cons, Option.mem_some_iff, forall_eq',
    isChain_cons_iff other, raisesSmall_of_ne_caret noCaret, implies_true, and_true]

/-- Scanning refuses integers of a larger magnitude. -/
theorem isMagnitude_of_scan {source : String} {tokens : List Token}
    (scanned : scan source = .ok tokens) : ∀ token ∈ tokens, token.IsMagnitude := by
  intro token member kind n value
  have lexical := isLexical_of_scan scanned token member
  have bounded := (cuts_of_scan scanned).bounded token member kind
  rw [integer?_of_isLexical lexical kind] at value
  cases value
  simp only [largestMagnitude, largestInteger] at *
  omega

end Token

namespace Expr

/-- An integer of the tree is no larger than the largest one, or larger by one where a sign comes
first. A sign stands before its operand, and before the left operand of an operator that passes
it on. -/
def MagnitudesFit (passes : Operator → Bool) (signed : Bool) : Expr → Prop
  | integer n => 0 ≤ n ∧ (n ≤ largestInteger ∨ signed = true ∧ n = largestInteger + 1)
  | unary op operand => operand.MagnitudesFit passes (op == .negate)
  | binary op left right =>
    left.MagnitudesFit passes (signed && passes op) ∧ right.MagnitudesFit passes false
  | _ => True

/-- An integer larger than the largest one is the operand of a sign. -/
def MagnitudesNegated (e : Expr) : Prop :=
  e.MagnitudesFit (fun _ => false) false

/-- An integer larger than the largest one is the operand of a sign, or the first base of a power
that is. -/
def MagnitudesPowered (e : Expr) : Prop :=
  e.MagnitudesFit (· == .power) false

/-- The integer that a literal spells, with or without a sign. -/
def spelled? : Expr → Option Int
  | integer n => some n
  | unary .negate (integer n) => some (-n)
  | _ => none

/-- A literal is evaluated to the integer that it spells. -/
def IsKept (e : Expr) : Prop :=
  ∀ n, e.spelled? = some n → ∀ env, e.evaluate env = .ok (.integer n)

def OperandsKept : Expr → Prop
  | unary _ operand => operand.OperandsKept
  | binary _ left right =>
    (left.IsKept ∧ left.OperandsKept) ∧ right.IsKept ∧ right.OperandsKept
  | _ => True

variable {e : Expr} {passes : Operator → Bool} {signed : Bool}

theorem MagnitudesFit.mono (fits : e.MagnitudesFit passes false) :
    e.MagnitudesFit passes signed := by
  induction e generalizing signed with
  | integer n => exact ⟨fits.1, .inl (fits.2.resolve_right nofun)⟩
  | binary op left right ihLeft _ => exact ⟨ihLeft fits.1, fits.2⟩
  | identifier | real | unary | blank => exact fits

/-- Where no operator passes a sign on, only a literal needs it. -/
theorem magnitudesFit_false_iff (fits : e.MagnitudesFit passes false) (signed : Bool) :
    e.MagnitudesFit (fun _ => false) false ↔ e.MagnitudesFit (fun _ => false) signed := by
  cases e with
  | integer n =>
    have small := fits.2.resolve_right nofun
    exact ⟨fun _ => ⟨fits.1, .inl small⟩, fun _ => ⟨fits.1, .inl small⟩⟩
  | binary op left right => simp only [MagnitudesFit, Bool.and_false]
  | identifier | real | unary | blank => exact Iff.rfl

/-! ### Evaluation -/

private theorem isKept_integer_iff {n : Int} (nonneg : 0 ≤ n) :
    (integer n).IsKept ↔ n ≤ largestInteger := by
  constructor
  · intro kept
    have value := kept n rfl .empty
    rw [evaluate, Number.ofInt, Except.ok.injEq, Number.integer.injEq] at value
    exact value ▸ (wrap_range n).2
  · intro small m same env
    cases same
    rw [evaluate, Number.ofInt, wrap_of_range (by unfold smallestInteger; omega) small]

/-- A sign undoes what wrapping does to the magnitude of the smallest integer. -/
private theorem isKept_unary {op : Operator} {operand : Expr}
    (fits : operand.MagnitudesFit passes (op == .negate)) : (unary op operand).IsKept := by
  intro n same env
  unfold spelled? at same
  split at same
  · next equal => cases equal
  · next m equal =>
    cases equal
    cases same
    obtain ⟨nonneg, bound⟩ := fits
    -- The magnitude of the smallest integer and its negation wrap to the same integer.
    have value : wrap (-wrap m) = -m := by
      rw [wrap_neg_wrap]
      exact wrap_of_range (by simp only [smallestInteger, largestInteger] at *; omega)
        (by simp only [largestInteger] at *; omega)
    simp only [evaluate, Number.ofInt, Number.negate, if_true, value]
  · cases same

/-- As an operand a literal is kept when it needs no sign. -/
theorem magnitudesFit_false_iff_isKept (fits : e.MagnitudesFit passes signed) :
    e.MagnitudesFit (fun _ => false) false ↔
      e.IsKept ∧ e.MagnitudesFit (fun _ => false) signed := by
  cases e with
  | integer n =>
    rw [isKept_integer_iff fits.1]
    exact ⟨fun strict => ⟨strict.2.resolve_right nofun, fits⟩,
      fun kept => ⟨fits.1, .inl kept.1⟩⟩
  | unary op operand => exact ⟨fun strict => ⟨isKept_unary fits, strict⟩, And.right⟩
  | binary op left right => simp [MagnitudesFit, IsKept, spelled?]
  | identifier | real | blank => simp [MagnitudesFit, IsKept, spelled?]

/-- Exactly the literals that have no sign where they need one are not kept. -/
theorem magnitudesFit_iff_operandsKept (fits : e.MagnitudesFit passes signed) :
    e.MagnitudesFit (fun _ => false) signed ↔ e.OperandsKept := by
  -- The sign is passed on as the tree grants it; each operand then gives it up.
  induction e generalizing signed with
  | integer n => exact iff_true_intro fits
  | unary op operand ih => exact ih fits
  | binary op left right ihLeft ihRight =>
    obtain ⟨fitsLeft, fitsRight⟩ := fits
    rw [MagnitudesFit, OperandsKept, Bool.and_false, magnitudesFit_false_iff_isKept fitsLeft,
      magnitudesFit_false_iff_isKept fitsRight, ihLeft fitsLeft, ihRight fitsRight]
  | identifier | real | blank => exact Iff.rfl

end Expr

/-! ### Phrases -/

namespace Derives

variable {phrase : Phrase} {negated : Bool} {tokens : List Token} {e : Expr}

/-- The sign before a phrase comes first for the literal with which the phrase begins. -/
theorem magnitudesFit (derives : Derives phrase negated tokens e)
    (within : ∀ token ∈ tokens, token.IsMagnitude) : e.MagnitudesFit (· == .power) negated := by
  induction derives with
  | name | letName | real => trivial
  | @integer _ _ n kind value range =>
    obtain ⟨nonneg, bound⟩ := List.forall_mem_singleton.mp within kind n value
    refine ⟨nonneg, ?_⟩
    by_cases small : n ≤ largestInteger
    · exact .inl small
    · exact .inr ⟨range.resolve_left small, by omega⟩
  | parentheses _ _ _ ih =>
    -- A sign before parentheses stands before no literal in them.
    rw [List.forall_mem_cons, List.forall_mem_append] at within
    exact (ih within.2.1).mono
  | ofAtom _ ih | ofChain _ ih | ofPower _ ih | ofUnary _ ih | ofProduct _ ih | ofSum _ ih =>
    exact ih within
  | raise _ _ _ ihLeft ihRight =>
    rw [List.forall_mem_append, List.forall_mem_cons] at within
    exact ⟨by simpa using ihLeft within.1, ihRight within.2.2⟩
  | raiseNegated _ _ _ _ ihLeft ihRight =>
    rw [List.forall_mem_append, List.forall_mem_cons, List.forall_mem_cons] at within
    exact ⟨by simpa using ihLeft within.1, ihRight within.2.2.2⟩
  | negation _ _ ih => exact ih (List.forall_mem_cons.mp within).2
  | product _ _ _ _ ihLeft ihRight | sum _ _ _ _ ihLeft ihRight
  | assignment _ _ _ ihLeft ihRight =>
    rw [List.forall_mem_append, List.forall_mem_cons] at within
    exact ⟨ihLeft within.1, ihRight within.2.2⟩

/-! ### Literals before the operator of powers -/

private theorem getLast?_parentheses (opening closing : Token) (tokens : List Token) :
    (opening :: (tokens ++ [closing])).getLast? = some closing := by
  rw [← List.cons_append, List.getLast?_concat]

/-- Behind no sign an atom ends with a small integer or with none. -/
private theorem isSmall_of_mem_getLast? (atom : Derives .atom false tokens e) :
    ∀ last ∈ tokens.getLast?, last.IsSmall := by
  cases atom with
  | name kind | letName _ kind | real kind => simp [Token.isSmall_of_ne_integer, kind]
  | integer kind value range => simpa [Token.IsSmall, kind, value] using range
  | parentheses _ kind _ => simp [getLast?_parentheses, Token.isSmall_of_ne_integer, kind]

/-- An atom needs the sign before it only if it ends with an integer that is not small. -/
theorem magnitudesFit_atom_iff (atom : Derives .atom negated tokens e)
    (within : ∀ token ∈ tokens, token.IsMagnitude) :
    e.MagnitudesFit (fun _ => false) false ↔
      e.MagnitudesFit (fun _ => false) negated ∧ ∀ last ∈ tokens.getLast?, last.IsSmall := by
  cases atom with
  | name kind | letName _ kind | real kind =>
    simp [Expr.MagnitudesFit, Token.isSmall_of_ne_integer, kind]
  | @integer _ _ n kind value range =>
    have fits : (Expr.integer n).MagnitudesFit (· == .power) negated :=
      (Derives.integer kind value range).magnitudesFit within
    simp only [List.getLast?_singleton, Option.mem_some_iff, forall_eq', Token.IsSmall, kind,
      value, Option.some.injEq, true_imp_iff]
    exact ⟨fun strict => ⟨fits, strict.2.resolve_right nofun⟩,
      fun both => ⟨fits.1, .inl both.2⟩⟩
  | parentheses opens closes inner =>
    rw [List.forall_mem_cons, List.forall_mem_append] at within
    have unsigned := Expr.magnitudesFit_false_iff (inner.magnitudesFit within.2.1) negated
    simpa [getLast?_parentheses, Token.isSmall_of_ne_integer, closes] using unsigned

private theorem magnitudesFit_chain_iff (chain : Derives .chain negated tokens e)
    (within : ∀ token ∈ tokens, token.IsMagnitude) :
    e.MagnitudesFit (fun _ => false) false ↔
      e.MagnitudesFit (fun _ => false) negated ∧ ∀ last ∈ tokens.getLast?, last.IsSmall := by
  cases chain with
  | ofAtom atom => exact atom.magnitudesFit_atom_iff within
  | raise left power right =>
    -- The last atom is an exponent, which no sign precedes.
    have last := right.isSmall_of_mem_getLast?
    obtain ⟨first, rest, rfl⟩ := List.exists_cons_of_ne_nil right.tokens_ne_nil
    rw [List.getLast?_append_of_ne_nil _ (List.cons_ne_nil _ _), List.getLast?_cons_cons]
    simp only [Expr.MagnitudesFit, Bool.and_false]
    exact (and_iff_left last).symm

/-- The literals that miss a sign are those that are raised. -/
theorem magnitudesFit_iff_isChain (derives : Derives phrase negated tokens e)
    (within : ∀ token ∈ tokens, token.IsMagnitude) :
    e.MagnitudesFit (fun _ => false) negated ↔ tokens.IsChain Token.RaisesSmall := by
  induction derives with
  | name | real => exact iff_of_true trivial (List.isChain_singleton _)
  | letName word _ =>
    refine iff_of_true trivial ((Token.isChain_cons_iff ?_).mpr (List.isChain_singleton _))
    simp [word]
  | integer kind value range =>
    have fits := (Derives.integer kind value range).magnitudesFit within
    exact iff_of_true fits (List.isChain_singleton _)
  | parentheses opens closes inner ih =>
    rw [List.forall_mem_cons, List.forall_mem_append] at within
    rw [← Expr.magnitudesFit_false_iff (inner.magnitudesFit within.2.1), ih within.2.1,
      Token.isChain_cons_iff (by simp [opens]),
      Token.isChain_append_iff (by simp [closes]) (by simp [closes])]
    exact (and_iff_left List.isChain_nil).symm
  | ofAtom _ ih | ofChain _ ih | ofPower _ ih | ofUnary _ ih | ofProduct _ ih | ofSum _ ih =>
    exact ih within
  | raise left power _ ihLeft ihRight =>
    -- The base stands under no sign any more: what it ends with has to be small.
    rw [List.forall_mem_append, List.forall_mem_cons] at within
    rw [Expr.MagnitudesFit, Bool.and_false, left.magnitudesFit_chain_iff within.1,
      ihLeft within.1, ihRight within.2.2, Token.isChain_append_caret_iff power]
  | raiseNegated left power minus _ ihLeft ihRight =>
    rw [List.forall_mem_append, List.forall_mem_cons, List.forall_mem_cons] at within
    rw [Expr.MagnitudesFit, Bool.and_false, left.magnitudesFit_chain_iff within.1,
      ihLeft within.1, Expr.MagnitudesFit, beq_self_eq_true, ihRight within.2.2.2,
      Token.isChain_append_caret_iff power, Token.isChain_cons_iff (by simp [minus])]
  | negation minus _ ih =>
    rw [Expr.MagnitudesFit, beq_self_eq_true, ih (List.forall_mem_cons.mp within).2,
      Token.isChain_cons_iff (by simp [minus])]
  | product _ spelled family _ ihLeft ihRight | sum _ spelled family _ ihLeft ihRight =>
    rw [List.forall_mem_append, List.forall_mem_cons] at within
    have noCaret := (TokenKind.eq_caret_iff spelled).not.mpr (by rintro rfl; simp at family)
    rw [Expr.MagnitudesFit, Bool.and_false, ihLeft within.1, ihRight within.2.2,
      Token.isChain_append_iff (TokenKind.ne_integer_of_binaryOperator? spelled) noCaret]
  | assignment _ equals _ ihTarget ihRight =>
    rw [List.forall_mem_append, List.forall_mem_cons] at within
    rw [Expr.MagnitudesFit, Bool.and_false, ihTarget within.1, ihRight within.2.2,
      Token.isChain_append_iff (by simp [equals]) (by simp [equals])]

end Derives

/-! ### Statements -/

/-- The largest magnitude stands under a sign or as the first base of a signed power; only in a
power is it not kept. -/
theorem magnitudes_fit_unless_raised {source : String} {tokens : List Token} {e : Expr}
    (scanned : Token.scan source = .ok tokens) (read : Expr.ofTokens tokens = .ok (some e)) :
    e.MagnitudesPowered ∧
    (e.MagnitudesNegated ↔ tokens.IsChain Token.RaisesSmall) ∧
    (e.OperandsKept ↔ tokens.IsChain Token.RaisesSmall) := by
  have derives := derives_of_ofTokens read
  have within := Token.isMagnitude_of_scan scanned
  have powered := derives.magnitudesFit within
  have negated := derives.magnitudesFit_iff_isChain within
  exact ⟨powered, negated, (Expr.magnitudesFit_iff_operandsKept powered).symm.trans negated⟩

/-- The tokens of `-2147483648 * 2 ^ -2147483648`. -/
def signedMagnitudes : List Token :=
  [⟨.minus, "-", 1⟩, ⟨.integer, "2147483648", 2⟩, ⟨.star, "*", 13⟩, ⟨.integer, "2", 15⟩,
   ⟨.caret, "^", 17⟩, ⟨.minus, "-", 19⟩, ⟨.integer, "2147483648", 20⟩]

/-- As a factor and as an exponent the smallest integer keeps its value. -/
theorem signedMagnitudes_fit :
    Token.scan "-2147483648 * 2 ^ -2147483648" = .ok signedMagnitudes ∧
    ∃ e, Expr.ofTokens signedMagnitudes = .ok (some e) ∧ e.MagnitudesNegated ∧
      e.OperandsKept := by
  have scanned : Token.scan "-2147483648 * 2 ^ -2147483648" = .ok signedMagnitudes := by
    decide +kernel
  have read : Expr.ofTokens signedMagnitudes = .ok (some (.binary .multiply
      (.unary .negate (.integer 2147483648))
      (.binary .power (.integer 2) (.unary .negate (.integer 2147483648))))) := by decide +kernel
  have two : Token.integer? ⟨.integer, "2", 15⟩ = some 2 := by decide +kernel
  have small : signedMagnitudes.IsChain Token.RaisesSmall := by
    simp [signedMagnitudes, Token.RaisesSmall, Token.IsSmall, two, largestInteger]
  obtain ⟨_, negated, kept⟩ := magnitudes_fit_unless_raised scanned read
  exact ⟨scanned, _, read, negated.mpr small, kept.mpr small⟩

/-- In the inverse of the smallest integer the magnitude is the base of a power, and is evaluated
to the smallest integer itself. -/
theorem raised_magnitude_is_not_kept :
    ∃ tokens e, Token.scan "-2147483648 ^ -1" = .ok tokens ∧
      Expr.ofTokens tokens = .ok (some e) ∧
      e = .unary .negate (.binary .power (.integer 2147483648) (.unary .negate (.integer 1))) ∧
      ¬e.MagnitudesNegated ∧ ¬e.OperandsKept ∧
      (Expr.integer 2147483648).evaluate .empty = .ok (.integer smallestInteger) := by
  have wrapped : (Expr.integer 2147483648).evaluate .empty = .ok (.integer smallestInteger) := rfl
  refine ⟨[⟨.minus, "-", 1⟩, ⟨.integer, "2147483648", 2⟩, ⟨.caret, "^", 13⟩, ⟨.minus, "-", 15⟩,
    ⟨.integer, "1", 16⟩], _, by decide +kernel, by decide +kernel, rfl, ?_, ?_, wrapped⟩
  · simp [Expr.MagnitudesNegated, Expr.MagnitudesFit, largestInteger]
  · intro kept
    have value := kept.1.1 2147483648 rfl .empty
    rw [wrapped] at value
    cases value

end Calculator
