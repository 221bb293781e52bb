import Calculator.Proofs.Reading.Completeness
import Calculator.Proofs.Token.Words
import Calculator.Statement

/-!
# Writing trees

A writing of a tree spells its literals and names and puts parentheses around some of its parts.
A writing is clear if each operand stands in parentheses or can do without them where it stands:
the rank of its outermost operator decides, and a sign at the end of a power is no base. The
minimal writing has no other parentheses than these, and more parentheses leave a writing clear.

## Main result

`reading_undoes_writing`: the minimal writing of a tree, with any further parentheses, is read as
the tree.

## Proof strategy

A clear writing spells its tree as a phrase of the grammar, by induction on the writing: at each
place the operators that may stand there without parentheses are those of the phrases that the
grammar admits there. The minimal writing is clear, and further parentheses hide operators only.
-/

namespace Calculator

/-- The writings of a tree. Parentheses are no node of the tree. -/
inductive Writing : Expr → Type
  | name (x : String) (spelled : TokenKind.identifier.Matches x.toList) : Writing (.identifier x)
  | integer (n : Nat) (range : n ≤ largestInteger) : Writing (.integer n)
  | real (text : String) (x : Binary) (spelled : TokenKind.real.Matches text.toList)
      (value : Token.real? ⟨.real, text, 1⟩ = some x) : Writing (.real x)
  | negation {e : Expr} (operand : Writing e) : Writing (.unary .negate e)
  | binary {op : Operator} {kind : TokenKind} {l r : Expr}
      (spelled : kind.binaryOperator? = some op)
      (target : op = .assign → l.isIdentifier = true)
      (left : Writing l) (right : Writing r) : Writing (.binary op l r)
  | parentheses {e : Expr} (inner : Writing e) : Writing e

inductive Place where
  | underSign
  | leftOf (op : Operator)
  | rightOf (op : Operator)

/-- The operators that may stand at a place without parentheses. A power on the left of a power
must not end with a sign, and whatever is assigned needs no parentheses. -/
def Place.admits : Place → Operator → Bool → Bool
  | underSign, inner, _ => inner = .power || inner = .negate
  | leftOf .assign, _, _ => false
  | leftOf .power, inner, endsSigned => inner = .power && !endsSigned
  | leftOf op, inner, _ => inner = .negate || (inner != .assign && op.rank ≤ inner.rank)
  | rightOf .assign, _, _ => true
  | rightOf op, inner, _ => inner = .negate || op.rank < inner.rank

namespace Writing

def words {e : Expr} : Writing e → List Word
  | name x _ => [⟨.identifier, x⟩]
  | integer n _ => [⟨.integer, integerText n⟩]
  | real text _ _ _ => [⟨.real, text⟩]
  | negation operand => ⟨.minus, "-"⟩ :: operand.words
  | @binary op kind _ _ _ _ left right => left.words ++ ⟨kind, op.symbol⟩ :: right.words
  | parentheses inner => ⟨.leftParen, "("⟩ :: (inner.words ++ [⟨.rightParen, ")"⟩])

/-- The operator that stands in no parentheses and binds the loosest, if there is any. -/
def operator? {e : Expr} : Writing e → Option Operator
  | negation _ => some .negate
  | @binary op _ _ _ _ _ _ _ => some op
  | _ => none

/-- The right operand is a sign without parentheses. -/
def endsSigned {e : Expr} : Writing e → Bool
  | binary _ _ _ right => right.operator? = some .negate
  | _ => false

/-! ### Operands without parentheses -/

def standsAt {e : Expr} (place : Place) (w : Writing e) : Bool :=
  w.operator?.all fun inner => place.admits inner w.endsSigned

/-- Each operand stands in parentheses or where it may stand without them. -/
def IsClear {e : Expr} : Writing e → Prop
  | negation operand => operand.standsAt .underSign = true ∧ operand.IsClear
  | @binary op _ _ _ _ _ left right =>
    left.standsAt (.leftOf op) = true ∧ right.standsAt (.rightOf op) = true ∧
      left.IsClear ∧ right.IsClear
  | parentheses inner => inner.IsClear
  | _ => True

def enclosedAt {e : Expr} (place : Place) (w : Writing e) : Writing e :=
  if w.standsAt place then w else parentheses w

/-- The writing with the same literals and no parentheses but those that it needs. -/
def minimal {e : Expr} : Writing e → Writing e
  | negation operand => negation (operand.minimal.enclosedAt .underSign)
  | @binary op _ _ _ spelled target left right =>
    binary spelled target (left.minimal.enclosedAt (.leftOf op))
      (right.minimal.enclosedAt (.rightOf op))
  | parentheses inner => inner.minimal
  | leaf => leaf

/-- The second writing is the first one with further parentheses around any of its parts. -/
inductive Encloses : {e : Expr} → Writing e → Writing e → Prop
  | refl {e : Expr} (w : Writing e) : Encloses w w
  | negation {e : Expr} {v w : Writing e} (operand : Encloses v w) :
      Encloses v.negation w.negation
  | binary {op : Operator} {kind : TokenKind} {l r : Expr}
      {spelled : kind.binaryOperator? = some op} {target : op = .assign → l.isIdentifier = true}
      {vl wl : Writing l} {vr wr : Writing r} (left : Encloses vl wl) (right : Encloses vr wr) :
      Encloses (.binary spelled target vl vr) (.binary spelled target wl wr)
  | parentheses {e : Expr} {v w : Writing e} (inner : Encloses v w) :
      Encloses v.parentheses w.parentheses
  | enclose {e : Expr} {v w : Writing e} (inner : Encloses v w) : Encloses v w.parentheses

/-! ### Clear writings -/

variable {e : Expr} {op inner : Operator} {place : Place} {v w : Writing e}

private theorem standsAt_of_closed (closed : w.operator? = none) (place : Place) :
    w.standsAt place = true := by
  rw [standsAt, closed, Option.all_none]

private theorem standsAt_enclosedAt (place : Place) (w : Writing e) :
    (w.enclosedAt place).standsAt place = true := by
  rw [enclosedAt]
  split
  · assumption
  · exact standsAt_of_closed rfl place

private theorem IsClear.enclosedAt (clear : w.IsClear) (place : Place) :
    (w.enclosedAt place).IsClear := by
  rw [Writing.enclosedAt]
  split <;> exact clear

private theorem isClear_minimal (w : Writing e) : w.minimal.IsClear := by
  induction w with
  | name | integer | real => trivial
  | negation operand ih => exact ⟨standsAt_enclosedAt _ _, ih.enclosedAt _⟩
  | binary _ _ left right ihLeft ihRight =>
    exact ⟨standsAt_enclosedAt _ _, standsAt_enclosedAt _ _, ihLeft.enclosedAt _,
      ihRight.enclosedAt _⟩
  | parentheses inner ih => exact ih

end Writing

private theorem Place.admits_of_imp {place : Place} {inner : Operator} {signed other : Bool}
    (admits : place.admits inner signed = true) (fewer : other = true → signed = true) :
    place.admits inner other = true := by
  cases other with
  | true => rwa [fewer rfl] at admits
  | false =>
    cases signed with
    | false => exact admits
    | true =>
      unfold Place.admits at admits ⊢
      split at admits
      all_goals simp_all

namespace Writing.Encloses

variable {e : Expr} {place : Place} {v w : Writing e}

/-- Further parentheses hide the outermost operator or leave it in its place, and they put no
sign at its end. -/
theorem operator? (encloses : Encloses v w) :
    w.operator? = none ∨
      (w.operator? = v.operator? ∧ (w.endsSigned = true → v.endsSigned = true)) := by
  induction encloses with
  | refl w => exact .inr ⟨rfl, id⟩
  | negation => exact .inr ⟨rfl, id⟩
  | binary _ _ _ ihRight =>
    -- The last sign of a binary writing is that of its right operand.
    refine .inr ⟨rfl, ?_⟩
    intro signed
    rcases ihRight with closed | ⟨same, _⟩
    · simp [endsSigned, closed] at signed
    · simpa [endsSigned, same] using signed
  | parentheses | enclose => exact .inl rfl

private theorem standsAt (encloses : Encloses v w) (stands : v.standsAt place = true) :
    w.standsAt place = true := by
  rcases encloses.operator? with closed | ⟨same, fewer⟩
  · exact standsAt_of_closed closed place
  · rw [Writing.standsAt, Option.all_eq_true] at stands ⊢
    intro inner outermost
    rw [same] at outermost
    exact Place.admits_of_imp (stands inner outermost) fewer

private theorem isClear (encloses : Encloses v w) (clear : v.IsClear) : w.IsClear := by
  induction encloses with
  | refl => exact clear
  | negation operand ih => exact ⟨operand.standsAt clear.1, ih clear.2⟩
  | binary left right ihLeft ihRight =>
    obtain ⟨standsLeft, standsRight, clearLeft, clearRight⟩ := clear
    exact ⟨left.standsAt standsLeft, right.standsAt standsRight, ihLeft clearLeft,
      ihRight clearRight⟩
  | parentheses _ ih | enclose _ ih => exact ih clear

end Writing.Encloses

/-! ### Phrases of clear writings -/

namespace Writing

variable {e : Expr} {inner : Operator} {place : Place} {w : Writing e}

def phrase {e : Expr} : Writing e → Phrase
  | negation _ => .unary
  | @binary op _ _ _ _ _ _ right =>
    match op with
    | .assign => .assignment
    | .plus | .minus => .sum
    | .multiply | .divide => .product
    | _ => if right.operator? = some .negate then .power else .chain
  | _ => .atom

private theorem phrase_of_closed (closed : w.operator? = none) : w.phrase = .atom := by
  cases w with
  | negation | binary => cases closed
  | name | integer | real | parentheses => rfl

/-- A phrase is as tight as its operator, up to the rank of a sign. -/
theorem le_rank_phrase {n : Nat} (outermost : w.operator? = some inner) (below : n ≤ inner.rank)
    (loose : n ≤ 4) : n ≤ w.phrase.rank := by
  cases w with
  | name | integer | real | parentheses => cases outermost
  | negation =>
    cases outermost
    exact below
  | binary _ _ _ right =>
    cases outermost
    simp only [phrase]
    split
    any_goals exact below
    split
    · exact loose
    · exact Nat.le_succ_of_le loose

/-- Where the grammar wants a phrase that is no tighter than a sign, the operators admitted there
are as tight. -/
theorem le_rank_phrase_of_standsAt {n : Nat} (stands : w.standsAt place = true) (loose : n ≤ 4)
    (admitted : ∀ inner signed, place.admits inner signed = true → n ≤ inner.rank) :
    n ≤ w.phrase.rank := by
  rw [standsAt, Option.all_eq_true] at stands
  cases outermost : w.operator? with
  | none =>
    rw [phrase_of_closed outermost]
    exact Nat.le_trans loose (by decide)
  | some inner => exact le_rank_phrase outermost (admitted _ _ (stands inner outermost)) loose

end Writing

/-! ### Ranks of operands -/

namespace Place

variable {op inner : Operator} {signed : Bool}

private theorem rank_underSign (admits : underSign.admits inner signed = true) :
    4 ≤ inner.rank := by
  simp only [Place.admits, Bool.or_eq_true, decide_eq_true_eq] at admits
  rcases admits with rfl | rfl <;> decide

private theorem rank_leftOf (loose : op.rank ≤ 3)
    (admits : (leftOf op).admits inner signed = true) :
    op.rank ≤ inner.rank := by
  cases op with
  | power | negate => exact absurd loose (by decide)
  | assign => cases admits
  | sentinel | plus | minus | multiply | divide =>
    simp only [Place.admits, Bool.or_eq_true, Bool.and_eq_true, decide_eq_true_eq] at admits
    rcases admits with rfl | ⟨_, below⟩
    · decide
    · exact below

private theorem rank_rightOf (arithmetic : 2 ≤ op.rank) (loose : op.rank ≤ 3)
    (admits : (rightOf op).admits inner signed = true) : op.rank + 1 ≤ inner.rank := by
  cases op with
  | power | negate => exact absurd loose (by decide)
  | sentinel | assign => exact absurd arithmetic (by decide)
  | plus | minus | multiply | divide =>
    simp only [Place.admits, Bool.or_eq_true, decide_eq_true_eq] at admits
    rcases admits with rfl | above
    · decide
    · exact above

end Place

/-! ### What a clear writing spells -/

private theorem Expr.exists_of_isIdentifier {e : Expr} (identifier : e.isIdentifier = true) :
    ∃ x, e = .identifier x := by
  cases e with
  | identifier x => exact ⟨x, rfl⟩
  | integer | real | unary | binary | blank => cases identifier

namespace Writing

open Place

variable {e l r : Expr}

/-- The left operand of a power is a chain, with whatever stands before it. -/
private theorem chain_of_leftOf {w : Writing e} {negated : Bool} {tokens : List Token}
    (stands : w.standsAt (.leftOf .power) = true)
    (derives : Derives w.phrase negated tokens e) : Derives .chain negated tokens e := by
  rw [standsAt, Option.all_eq_true] at stands
  cases w with
  | name | integer | real | parentheses => exact .ofAtom derives
  | negation =>
    have admits := stands .negate rfl
    simp [Place.admits] at admits
  | @binary op _ _ _ _ _ _ right =>
    have admits := stands op rfl
    simp only [Place.admits, Bool.and_eq_true, decide_eq_true_eq, endsSigned,
      Bool.not_eq_true', decide_eq_false_iff_not] at admits
    obtain ⟨rfl, unsigned⟩ := admits
    simp only [phrase, if_neg unsigned] at derives
    exact derives

private theorem raise_of_rightOf {w : Writing e} {base tokens : List Token} {caret : Token}
    {negated : Bool} (left : Derives .chain negated base l) (power : caret.kind = .caret)
    (stands : w.standsAt (.rightOf .power) = true)
    (spelled : tokens.map Token.word = w.words) (derives : Derives w.phrase false tokens e) :
    Derives (if w.operator? = some .negate then .power else .chain) negated
      (base ++ caret :: tokens) (.binary .power l e) := by
  rw [standsAt, Option.all_eq_true] at stands
  cases w with
  | name | integer | real | parentheses => exact .raise left power derives
  | negation operand =>
    -- The grammar takes the sign of an exponent apart from its operand.
    obtain ⟨sign, rest, rfl, minus, _⟩ := List.map_eq_cons_iff.mp spelled
    have kind : sign.kind = .minus := congrArg Word.kind minus
    obtain ⟨_, same, derives⟩ := Derives.of_sign derives kind
    cases same
    exact .raiseNegated left power kind derives
  | @binary op kind _ _ known =>
    obtain ⟨_, _, noNegation, _⟩ := Operator.of_binaryOperator? known
    have admits := stands op rfl
    -- Nothing ranks above the power.
    cases op <;> simp [Place.admits, Operator.rank] at admits noNegation

/-- A clear writing spells its tree as its phrase. -/
theorem derives {w : Writing e} (clear : w.IsClear) {negated : Bool} {tokens : List Token}
    (tight : negated = false ∨ 4 ≤ w.phrase.rank) (spelled : tokens.map Token.word = w.words) :
    Derives w.phrase negated tokens e := by
  induction w generalizing negated tokens with
  | name x =>
    obtain ⟨token, rfl, same⟩ := List.map_eq_singleton_iff.mp spelled
    have text : token.text = x := congrArg Word.text same
    subst text
    exact .name (congrArg Word.kind same)
  | integer n range =>
    obtain ⟨token, rfl, same⟩ := List.map_eq_singleton_iff.mp spelled
    exact .integer (congrArg Word.kind same) (Token.integer?_of_word same) (.inl range)
  | real text x matching value =>
    obtain ⟨token, rfl, same⟩ := List.map_eq_singleton_iff.mp spelled
    exact .real (congrArg Word.kind same) ((Token.real?_of_word same).trans value)
  | negation operand ih =>
    obtain ⟨sign, rest, rfl, minus, same⟩ := List.map_eq_cons_iff.mp spelled
    -- What may stand under a sign is a unary phrase, and the sign stands directly before it.
    have rank := le_rank_phrase_of_standsAt clear.1 (Nat.le_refl 4) fun _ _ => rank_underSign
    have inner : Derives operand.phrase true rest _ := ih clear.2 (.inr rank) same
    exact .negation (congrArg Word.kind minus) (inner.toUnary rank)
  | @binary op kind l r opSpelled target left right ihLeft ihRight =>
    obtain ⟨ls, ms, rfl, sameLeft, middle⟩ := List.map_eq_append_iff.mp spelled
    obtain ⟨token, rs, rfl, operator, sameRight⟩ := List.map_eq_cons_iff.mp middle
    obtain ⟨standsLeft, standsRight, clearLeft, clearRight⟩ := clear
    have tokenKind : token.kind = kind := congrArg Word.kind operator
    rw [← tokenKind] at opSpelled
    have derivesRight := ihRight clearRight (.inl rfl) sameRight
    cases op with
    | sentinel | negate =>
      obtain ⟨_, noSentinel, noNegation, _⟩ := Operator.of_binaryOperator? opSpelled
      simp at noSentinel noNegation
    | assign =>
      obtain rfl | loose := tight
      · -- The target is a name, whatever parentheses stand around it.
        obtain ⟨x, rfl⟩ := Expr.exists_of_isIdentifier (target rfl)
        have rank : 2 ≤ left.phrase.rank := by
          cases left with
          | name | parentheses => exact (by decide : 2 ≤ Phrase.atom.rank)
        have derivesLeft := ihLeft clearLeft (.inl rfl) sameLeft
        exact .assignment (derivesLeft.toSum rank) (TokenKind.eq_equals opSpelled)
          derivesRight.toAssignment
      · exact absurd loose (by decide : ¬4 ≤ Phrase.assignment.rank)
    | plus | minus =>
      obtain rfl | loose := tight
      · have derivesLeft := ihLeft clearLeft (.inl rfl) sameLeft
        have rankLeft : 2 ≤ left.phrase.rank :=
          le_rank_phrase_of_standsAt standsLeft (by decide) fun _ _ => rank_leftOf (by decide)
        have rankRight : 3 ≤ right.phrase.rank :=
          le_rank_phrase_of_standsAt standsRight (by decide) fun _ _ =>
            rank_rightOf (by decide) (by decide)
        exact .sum (derivesLeft.toSum rankLeft) opSpelled (by decide)
          (derivesRight.toProduct rankRight)
      · exact absurd loose (by decide : ¬4 ≤ Phrase.sum.rank)
    | multiply | divide =>
      obtain rfl | loose := tight
      · have derivesLeft := ihLeft clearLeft (.inl rfl) sameLeft
        have rankLeft : 3 ≤ left.phrase.rank :=
          le_rank_phrase_of_standsAt standsLeft (by decide) fun _ _ => rank_leftOf (by decide)
        have rankRight : 4 ≤ right.phrase.rank :=
          le_rank_phrase_of_standsAt standsRight (by decide) fun _ _ =>
            rank_rightOf (by decide) (by decide)
        exact .product (derivesLeft.toProduct rankLeft) opSpelled (by decide)
          (derivesRight.toUnary rankRight)
      · exact absurd loose (by decide : ¬4 ≤ Phrase.product.rank)
    | power =>
      have rankLeft : 4 ≤ left.phrase.rank :=
        le_rank_phrase_of_standsAt standsLeft (by decide) fun _ _ admits => by
          simp only [Place.admits, Bool.and_eq_true, decide_eq_true_eq] at admits
          rw [admits.1]
          decide
      have derivesLeft : Derives left.phrase negated ls l :=
        ihLeft clearLeft (.inr rankLeft) sameLeft
      exact raise_of_rightOf (chain_of_leftOf standsLeft derivesLeft)
        (TokenKind.eq_caret opSpelled) standsRight sameRight derivesRight
  | parentheses inner ih =>
    obtain ⟨opening, rest, rfl, opens, middle⟩ := List.map_eq_cons_iff.mp spelled
    obtain ⟨tokens, last, rfl, same, closing⟩ := List.map_eq_append_iff.mp middle
    obtain ⟨closing, rfl, closes⟩ := List.map_eq_singleton_iff.mp closing
    exact .parentheses (congrArg Word.kind opens) (congrArg Word.kind closes)
      (ih clear (.inl rfl) same).toAssignment

/-! ### The words of a writing -/

private theorem isLegal_operator {kind : TokenKind} {op : Operator}
    (spelled : kind.binaryOperator? = some op) : Word.IsLegal ⟨kind, op.symbol⟩ := by
  cases kind <;> cases spelled
  all_goals exact Word.isLegal_of_matches ⟨_, rfl, rfl⟩ (by decide)

theorem isLegal_words (w : Writing e) : ∀ word ∈ w.words, word.IsLegal := by
  induction w with
  | name x spelled =>
    intro word member
    rw [List.mem_singleton.mp member]
    exact Word.isLegal_of_matches spelled (by decide)
  | integer n range =>
    intro word member
    rw [List.mem_singleton.mp member]
    apply Word.isLegal_integer
    simp only [largestInteger] at range
    simp only [Token.largestMagnitude]
    omega
  | real text x spelled value =>
    intro word member
    rw [List.mem_singleton.mp member]
    exact Word.isLegal_of_matches spelled (by decide)
  | negation operand ih =>
    intro word member
    rcases List.mem_cons.mp member with rfl | inside
    · exact Word.isLegal_of_matches ⟨'-', rfl, rfl⟩ (by decide)
    · exact ih word inside
  | binary spelled _ left right ihLeft ihRight =>
    intro word member
    rcases List.mem_append.mp member with inside | member
    · exact ihLeft word inside
    · rcases List.mem_cons.mp member with rfl | inside
      · exact isLegal_operator spelled
      · exact ihRight word inside
  | parentheses inner ih =>
    intro word member
    rcases List.mem_cons.mp member with rfl | member
    · exact Word.isLegal_of_matches ⟨'(', rfl, rfl⟩ (by decide)
    · rcases List.mem_append.mp member with inside | last
      · exact ih word inside
      · rw [List.mem_singleton.mp last]
        exact Word.isLegal_of_matches ⟨')', rfl, rfl⟩ (by decide)

private theorem ofTokens_of_isClear {w : Writing e} (clear : w.IsClear) {tokens : List Token}
    (spelled : tokens.map Token.word = w.words) : Expr.ofTokens tokens = .ok (some e) :=
  ofTokens_of_derives (derives clear (.inl rfl) spelled).toAssignment

end Writing

/-- The minimal writing of a tree and every writing with further parentheses are read as the
tree, from any tokens with these words and from the text that the words form with blanks
between them. -/
theorem reading_undoes_writing {e : Expr} (w : Writing e) {v : Writing e}
    (encloses : w.minimal.Encloses v) :
    (∀ tokens, tokens.map Token.word = v.words → Expr.ofTokens tokens = .ok (some e)) ∧
    Statement.tree? (Word.spaced v.words) = .ok (some e) := by
  have clear : v.IsClear := encloses.isClear w.isClear_minimal
  refine ⟨fun tokens spelled => Writing.ofTokens_of_isClear clear spelled, ?_⟩
  obtain ⟨tokens, scanned, spelled⟩ := Token.exists_scan_spaced v.isLegal_words
  simp only [Statement.tree?, scanned, Writing.ofTokens_of_isClear clear spelled]

/-! ### A power whose base ends with a sign -/

/-- The tree of `x = (2 ^ -y) ^ 1.50`. -/
def signedBase : Expr :=
  .binary .assign (.identifier "x")
    (.binary .power (.binary .power (.integer 2) (.unary .negate (.identifier "y")))
      (.real (.number (3 / 2))))

namespace Writing

/-- The writings of the tree, with or without parentheses around the exponent, the base and the
right side. -/
def ofSignedBase (exponent : Writing (.identifier "y") → Writing (.identifier "y"))
    (base : {e : Expr} → Writing e → Writing e) (side : {e : Expr} → Writing e → Writing e) :
    Writing signedBase :=
  have x : TokenKind.identifier.Matches "x".toList := ⟨⟨'x', [], rfl, rfl, nofun⟩, by decide⟩
  have y : TokenKind.identifier.Matches "y".toList := ⟨⟨'y', [], rfl, rfl, nofun⟩, by decide⟩
  have real : TokenKind.real.Matches "1.50".toList :=
    ⟨['1'], ['5', '0'], rfl, List.cons_ne_nil _ _, List.all_eq_true.mp rfl,
      List.all_eq_true.mp rfl⟩
  have value : Token.real? ⟨.real, "1.50", 1⟩ = some (.number (3 / 2)) := by decide +kernel
  @binary _ .equals _ _ rfl (fun _ => rfl) (.name "x" x)
    (side (@binary _ .caret _ _ rfl nofun
      (base (@binary _ .caret _ _ rfl nofun (.integer 2 (by decide))
        (.negation (exponent (.name "y" y)))))
      (.real "1.50" (.number (3 / 2)) real value)))

end Writing

/-- The base keeps its parentheses, because it ends with a sign; others may be added. -/
theorem tree?_of_enclosed_signedBase :
    (Writing.ofSignedBase id id id).minimal.words
      = (Writing.ofSignedBase id .parentheses id).words ∧
    Word.spaced (Writing.ofSignedBase id .parentheses id).words = "x = ( 2 ^ - y ) ^ 1.50" ∧
    (Writing.ofSignedBase id id id).minimal.Encloses
      (Writing.ofSignedBase .parentheses .parentheses .parentheses) ∧
    Statement.tree? "x = ( ( 2 ^ - ( y ) ) ^ 1.50 )" = .ok (some signedBase) := by
  have encloses : (Writing.ofSignedBase id id id).minimal.Encloses
      (Writing.ofSignedBase .parentheses .parentheses .parentheses) := by
    refine .binary (.refl _) (.enclose (.binary (.parentheses ?_) (.refl _)))
    exact .binary (.refl _) (.negation (.enclose (.refl _)))
  have text : Word.spaced (Writing.ofSignedBase .parentheses .parentheses .parentheses).words
      = "x = ( ( 2 ^ - ( y ) ) ^ 1.50 )" := rfl
  refine ⟨rfl, rfl, encloses, ?_⟩
  rw [← text]
  exact (reading_undoes_writing (Writing.ofSignedBase id id id) encloses).2

end Calculator
