import Calculator.Proofs.Evaluation.Faults
import Calculator.Proofs.Evaluation.Width

/-!
# The checks of an evaluation

Each node is checked before its operands are evaluated, the left operand before the right one, and
a binary node is checked once more when both operands have their numbers. The evaluation of a tree
fails with the fault of the first check in this order that does not pass; if all pass, the tree has
a number. A statement that assigns checks its target in place of its operator and does not evaluate
the left side.

## Main result

`evaluation_reports_the_first_fault`: when a statement succeeds, and the fault of one that fails.

## Proof strategy

`Number.combines` says what an operation on two numbers does, and the list of the checks follows the
recursion of the evaluation.
-/

namespace Calculator

namespace Number

/-! ### Combining two numbers -/

variable {op : Operator} {a b : Number}

/-- An operation is one of reals when an operand is a real, or when an integer has a negative
integer as its exponent. -/
def UsesReals (op : Operator) : Number → Number → Prop
  | integer _, integer exponent => op = .power ∧ exponent < 0
  | _, _ => True

instance (op : Operator) (a b : Number) : Decidable (UsesReals op a b) :=
  match a, b with
  | integer _, integer exponent => inferInstanceAs (Decidable (op = .power ∧ exponent < 0))
  | integer _, real _ | real _, integer _ | real _, real _ => isTrue trivial

instance (a : Number) : Decidable a.IsConvertible :=
  match a with
  | integer n => inferInstanceAs (Decidable (n.natAbs < conversionBound))
  | real _ => isTrue trivial

/-- Why two numbers are not combined, if they are not. Only an operation of reals converts its
operands, and only one of integers divides by zero. -/
def combinationFault? (op : Operator) (a b : Number) : Option Fault :=
  if UsesReals op a b then
    if a.IsConvertible ∧ b.IsConvertible then none else some .integerTooLarge
  else if op = .divide ∧ b = integer 0 then some .divisionByZero
  else none

theorem usesReals_iff : UsesReals op a b ↔ (a.kind = .real ∨ b.kind = .real) ∨
    op = .power ∧ ∃ m n, a = integer m ∧ b = integer n ∧ n < 0 := by
  cases a <;> cases b <;> simp [UsesReals, kind]

theorem combinationFault?_eq_none_iff : combinationFault? op a b = none ↔
    (op = .divide → ∀ m, a = integer m → b ≠ integer 0) ∧
      (UsesReals op a b → a.IsConvertible ∧ b.IsConvertible) := by
  unfold combinationFault?
  split
  · next reals =>
    -- An integer over zero is no operation of reals.
    have nonzero : op = .divide → ∀ m, a = integer m → b ≠ integer 0 := by
      rintro rfl m rfl rfl
      cases reals.1
    simp only [ite_eq_left_iff, reduceCtorEq, imp_false, not_not]
    exact ⟨fun both => ⟨nonzero, fun _ => both⟩, fun ⟨_, both⟩ => both reals⟩
  · next integers =>
    simp only [integers, false_imp_iff, and_true, ite_eq_right_iff, reduceCtorEq, imp_false,
      not_and]
    cases a with
    | integer m => simp
    | real x => exact absurd trivial integers

private theorem realOfInt_eq_error {n : Int} (large : ¬(integer n).IsConvertible) :
    realOfInt n = .error .integerTooLarge :=
  realOfInt_eq_error_iff.mpr ⟨rfl, Nat.not_lt.mp large⟩

/-- A real beside an integer that cannot be converted. -/
private theorem promote_eq_error (mixed : a.kind = .real ∨ b.kind = .real)
    (large : ¬(a.IsConvertible ∧ b.IsConvertible)) : promote a b = .error .integerTooLarge := by
  cases a with
  | integer m =>
    cases b with
    | integer n => simp [kind] at mixed
    | real y =>
      have beyond : ¬(integer m).IsConvertible := fun small => large ⟨small, trivial⟩
      simp only [promote, realOfInt_eq_error beyond]
  | real x =>
    cases b with
    | integer n =>
      have beyond : ¬(integer n).IsConvertible := fun small => large ⟨trivial, small⟩
      simp only [promote, realOfInt_eq_error beyond]
    | real y => exact absurd ⟨trivial, trivial⟩ large

theorem exists_apply_real (arithmetic : op.isArithmetic = true) (reals : UsesReals op a b)
    (left : a.IsConvertible) (right : b.IsConvertible) : ∃ x, apply op a b = .ok (real x) := by
  rcases promote_eq_ok left right with ⟨m, n, promoted, rfl, rfl⟩ | ⟨x, y, promoted⟩
  · -- Integers make a real as a power only.
    obtain ⟨rfl, negative⟩ := reals
    obtain ⟨x, base⟩ := realOfInt_eq_ok left
    obtain ⟨y, exponent⟩ := realOfInt_eq_ok right
    simp only [apply, promoted, combineIntegers, power, if_neg (Int.not_le.mpr negative), base,
      exponent]
    exact ⟨_, rfl⟩
  · simp only [apply, promoted]
    cases op with
    | plus | minus | multiply | divide | power => exact ⟨_, rfl⟩
    | sentinel | assign | negate => cases arithmetic

private theorem apply_eq_integerTooLarge (reals : UsesReals op a b)
    (large : ¬(a.IsConvertible ∧ b.IsConvertible)) : apply op a b = .error .integerTooLarge := by
  rcases usesReals_iff.mp reals with mixed | ⟨rfl, m, n, rfl, rfl, negative⟩
  · simp only [apply, promote_eq_error mixed large]
  · simp only [apply, promote, combineIntegers, power, if_neg (Int.not_le.mpr negative)]
    -- The base is converted first; the fault is the same for both.
    by_cases small : (integer m).IsConvertible
    · obtain ⟨x, base⟩ := realOfInt_eq_ok small
      have beyond : ¬(integer n).IsConvertible := fun other => large ⟨small, other⟩
      simp only [base, realOfInt_eq_error beyond]
    · simp only [realOfInt_eq_error small]

private theorem apply_integers (arithmetic : op.isArithmetic = true) {m n : Int}
    (integers : ¬UsesReals op (integer m) (integer n)) :
    (op = .divide ∧ n = 0 → apply op (integer m) (integer n) = .error .divisionByZero) ∧
    (¬(op = .divide ∧ n = 0) → ∃ k, apply op (integer m) (integer n) = .ok (integer k)) := by
  simp only [apply, promote]
  cases op with
  | sentinel | assign | negate => cases arithmetic
  | plus | minus | multiply =>
    exact ⟨fun zero => absurd zero.1 (by decide), fun _ => ⟨_, rfl⟩⟩
  | divide =>
    simp only [combineIntegers, true_and]
    exact ⟨fun zero => if_pos zero, fun nonzero => ⟨_, if_neg nonzero⟩⟩
  | power =>
    have exponent : 0 ≤ n := Int.not_lt.mp fun negative => integers ⟨rfl, negative⟩
    simp only [combineIntegers, power, if_pos exponent]
    exact ⟨fun zero => absurd zero.1 (by decide), fun _ => ⟨_, rfl⟩⟩

/-- What an operation on two numbers does: it has the one fault that it can have, or it gives a
number of the kind that it works with. -/
theorem combines (arithmetic : op.isArithmetic = true) (a b : Number) :
    (∃ fault, combinationFault? op a b = some fault ∧ apply op a b = .error fault) ∨
    (combinationFault? op a b = none ∧
      ∃ v, apply op a b = .ok v ∧ (v.kind = .real ↔ UsesReals op a b)) := by
  by_cases reals : UsesReals op a b
  · simp only [combinationFault?, if_pos reals]
    by_cases convertible : a.IsConvertible ∧ b.IsConvertible
    · obtain ⟨x, applied⟩ := exists_apply_real arithmetic reals convertible.1 convertible.2
      rw [if_pos convertible]
      exact .inr ⟨rfl, real x, applied, iff_of_true rfl reals⟩
    · rw [if_neg convertible]
      exact .inl ⟨_, rfl, apply_eq_integerTooLarge reals convertible⟩
  · simp only [combinationFault?, if_neg reals]
    -- Without a real operand there are two integers.
    obtain ⟨m, n, rfl, rfl⟩ : ∃ m n, a = integer m ∧ b = integer n := by
      cases a <;> cases b <;> first | exact ⟨_, _, rfl, rfl⟩ | exact absurd trivial reals
    obtain ⟨fails, succeeds⟩ := apply_integers arithmetic reals
    by_cases zero : op = .divide ∧ n = 0
    · rw [if_pos ⟨zero.1, congrArg integer zero.2⟩]
      exact .inl ⟨_, rfl, fails zero⟩
    · obtain ⟨k, applied⟩ := succeeds zero
      rw [if_neg (by simpa using zero)]
      exact .inr ⟨rfl, integer k, applied, iff_of_false nofun reals⟩

end Number

/-! ### The order of the checks -/

/-- One check of an evaluation: that of a node before its operands, that of a node after them, or
that of the target of a statement that assigns. -/
inductive Check where
  | before (node : Expr)
  | after (node : Expr)
  | target (left : Expr)
  deriving DecidableEq, Repr

def Check.fault? (env : Environment) : Check → Option Fault
  | before (.identifier name) => if env.contains name = true then none else some (.unassigned name)
  | before (.integer _) | before (.real _) => none
  | before (.unary op _) => if op = .negate then none else some (.misplaced op .unary)
  | before (.binary op _ _) =>
    if op = .assign then some (.misplaced op .nested)
    else if op.isArithmetic = true then none
    else some (.misplaced op .binary)
  | before .blank => some (.notEvaluable .blank)
  | after (.binary op left right) =>
    match left.evaluate env, right.evaluate env with
    | .ok a, .ok b => Number.combinationFault? op a b
    | _, _ => none
  | after _ => none
  | target (.identifier _) => none
  | target other => some (.badTarget other)

namespace Expr

/-- The subtrees of a tree with the tree itself, each before its own operands. -/
def subtrees : Expr → List Expr
  | unary op operand => unary op operand :: operand.subtrees
  | binary op left right => binary op left right :: (left.subtrees ++ right.subtrees)
  | leaf => [leaf]

/-- The checks of a tree in the order in which they are made. -/
def checks : Expr → List Check
  | unary op operand => .before (unary op operand) :: operand.checks
  | binary op left right =>
    .before (binary op left right)
      :: (left.checks ++ right.checks ++ [.after (binary op left right)])
  | leaf => [.before leaf]

def statementChecks : Expr → List Check
  | binary .assign left right => .target left :: right.checks
  | e => e.checks

end Expr

def faultOf {α : Type} : Except Fault α → Option Fault
  | .ok _ => none
  | .error fault => some fault

theorem faultOf_eq_some_iff {α : Type} {result : Except Fault α} {fault : Fault} :
    faultOf result = some fault ↔ result = .error fault := by
  cases result <;> simp [faultOf]

theorem faultOf_eq_none_iff {α : Type} {result : Except Fault α} :
    faultOf result = none ↔ ∃ value, result = .ok value := by
  cases result <;> simp [faultOf]

theorem faultOf_map {α β : Type} (f : α → β) (result : Except Fault α) :
    faultOf (result.map f) = faultOf result := by
  cases result <;> rfl

namespace Expr

variable {env : Environment} {e : Expr}

/-- The first check that does not pass tells the fault of a tree. -/
theorem findSome?_checks (env : Environment) (e : Expr) :
    e.checks.findSome? (Check.fault? env) = faultOf (e.evaluate env) := by
  induction e with
  | integer | real | blank => rfl
  | identifier name =>
    simp only [checks, List.findSome?_singleton, Check.fault?, Environment.contains, evaluate]
    rcases Option.eq_none_or_eq_some (env.lookup name) with found | ⟨v, found⟩
    · simp [found, faultOf]
    · simp [found, faultOf]
  | unary op operand ih =>
    simp only [checks, List.findSome?_cons, Check.fault?, evaluate, ih]
    by_cases negation : op = .negate
    · simp only [if_pos negation]
      cases operand.evaluate env <;> rfl
    · simp only [if_neg negation]
      rfl
  | binary op left right ihLeft ihRight =>
    simp only [checks, List.findSome?_cons, List.findSome?_append, List.findSome?_nil, ihLeft,
      ihRight, Check.fault?, evaluate]
    by_cases assign : op = .assign
    · simp only [if_pos assign]
      rfl
    simp only [if_neg assign]
    cases arithmetic : op.isArithmetic with
    | false => rfl
    | true =>
      -- A fault of an operand comes first; with two numbers the last check decides.
      cases left.evaluate env with
      | error fault => rfl
      | ok a =>
        cases right.evaluate env with
        | error fault => rfl
        | ok b =>
          rcases Number.combines arithmetic a b with ⟨fault, found, applied⟩ | ⟨none, v, applied, _⟩
          · simp [found, applied, faultOf]
          · simp [none, applied, faultOf]

/-- The first check that does not pass tells the fault of a statement. -/
theorem findSome?_statementChecks (env : Environment) (e : Expr) :
    e.statementChecks.findSome? (Check.fault? env) = faultOf (e.execute env) := by
  rcases e.statement_cases with plain | ⟨x, r, rfl⟩ | ⟨l, r, other, rfl⟩
  · have same : e.statementChecks = e.checks := by
      unfold statementChecks
      split
      · cases plain
      · rfl
    rw [same, findSome?_checks, execute_of_isAssignment_eq_false env plain, faultOf_map]
  · rw [execute_assign, faultOf_map, ← findSome?_checks]
    rfl
  · have refused : (Check.target l).fault? env = some (.badTarget l) := by
      cases l with
      | identifier x => cases other
      | integer | real | unary | binary | blank => rfl
    rw [execute_badTarget other, statementChecks, List.findSome?_cons, refused]
    rfl

/-! ### When all checks pass -/

/-- Each operator of the tree stands where it may stand, each leaf has a number, and no integer is
divided by zero. -/
structure IsProper (env : Environment) (e : Expr) : Prop where
  signs : ∀ op operand, unary op operand ∈ e.subtrees → op = .negate
  operators : ∀ op left right, binary op left right ∈ e.subtrees → op.isArithmetic = true
  leaves : blank ∉ e.subtrees
  names : ∀ name, identifier name ∈ e.subtrees → env.contains name = true
  divisors : ∀ left right a, binary .divide left right ∈ e.subtrees →
    left.evaluate env = .ok (.integer a) → right.evaluate env ≠ .ok (.integer 0)

/-- Each operand of an operation of reals in the tree can be converted. -/
def Converts (env : Environment) (e : Expr) : Prop :=
  ∀ op left right a b, binary op left right ∈ e.subtrees → left.evaluate env = .ok a →
    right.evaluate env = .ok b → Number.UsesReals op a b → a.IsConvertible ∧ b.IsConvertible

/-- The tree is one of a statement that succeeds: a proper one whose reals can be made, or an
assignment of such a tree to a name. -/
def IsExecutable (env : Environment) : Expr → Prop
  | binary .assign left right =>
    (∃ name, left = identifier name) ∧ right.IsProper env ∧ right.Converts env
  | e => e.IsProper env ∧ e.Converts env

theorem mem_checks_iff {check : Check} : check ∈ e.checks ↔
    (∃ node ∈ e.subtrees, check = .before node) ∨
      ∃ op left right, binary op left right ∈ e.subtrees ∧
        check = .after (binary op left right) := by
  induction e with
  | identifier | integer | real | blank => simp [checks, subtrees]
  | unary op operand ih =>
    simp only [checks, subtrees, List.mem_cons, ih]
    grind
  | binary op left right ihLeft ihRight =>
    simp only [checks, subtrees, List.mem_cons, List.mem_append, ihLeft, ihRight]
    grind

/-- All checks of a tree pass exactly when it is proper and its reals can be made. -/
theorem forall_fault?_eq_none_iff :
    (∀ check ∈ e.checks, check.fault? env = none) ↔ e.IsProper env ∧ e.Converts env := by
  simp only [mem_checks_iff]
  constructor
  · -- Each part of being proper is what one check says when it finds no fault.
    intro pass
    have before (node : Expr) (member : node ∈ e.subtrees) :
        (Check.before node).fault? env = none := pass _ (.inl ⟨node, member, rfl⟩)
    have after (op : Operator) (left right : Expr) (a b : Number)
        (member : binary op left right ∈ e.subtrees) (first : left.evaluate env = .ok a)
        (second : right.evaluate env = .ok b) : Number.combinationFault? op a b = none := by
      simpa only [Check.fault?, first, second] using pass _ (.inr ⟨op, left, right, member, rfl⟩)
    refine ⟨⟨?_, ?_, ?_, ?_, ?_⟩, ?_⟩
    · intro op operand member
      simpa [Check.fault?] using before _ member
    · intro op left right member
      have passed := before _ member
      simp only [Check.fault?] at passed
      split at passed
      · cases passed
      · simpa using passed
    · intro member
      cases before _ member
    · intro name member
      simpa [Check.fault?] using before _ member
    · intro left right a member first second
      have none := after _ _ _ _ _ member first second
      exact (Number.combinationFault?_eq_none_iff.mp none).1 rfl a rfl rfl
    · intro op left right a b member first second
      exact (Number.combinationFault?_eq_none_iff.mp (after _ _ _ _ _ member first second)).2
  · rintro ⟨proper, converts⟩ check (⟨node, member, rfl⟩ | ⟨op, left, right, member, rfl⟩)
    · cases node with
      | integer | real => rfl
      | blank => exact absurd member proper.leaves
      | identifier name => simp [Check.fault?, proper.names name member]
      | unary op operand => simp [Check.fault?, proper.signs op operand member]
      | binary op left right =>
        have arithmetic := proper.operators op left right member
        simp [Check.fault?, arithmetic, Operator.ne_assign_of_isArithmetic arithmetic]
    · -- A check after the operands finds nothing unless both of them have a number.
      simp only [Check.fault?]
      split
      · next a b first second =>
        refine Number.combinationFault?_eq_none_iff.mpr
          ⟨?_, converts op left right a b member first second⟩
        rintro rfl m rfl rfl
        exact proper.divisors left right m member first second
      · rfl

/-- A tree has a number exactly when it is proper and its reals can be made. -/
theorem exists_evaluate_iff :
    (∃ v, e.evaluate env = .ok v) ↔ e.IsProper env ∧ e.Converts env := by
  rw [← faultOf_eq_none_iff, ← findSome?_checks, List.findSome?_eq_none_iff,
    forall_fault?_eq_none_iff]

theorem exists_execute_iff :
    (∃ value after, e.execute env = .ok (value, after)) ↔ e.IsExecutable env := by
  have outcome : (∃ value after, e.execute env = .ok (value, after))
      ↔ ∃ result, e.execute env = .ok result := by
    simp only [Prod.exists]
  rw [outcome, ← faultOf_eq_none_iff]
  rcases e.statement_cases with plain | ⟨x, r, rfl⟩ | ⟨l, r, other, rfl⟩
  · have same : e.IsExecutable env ↔ e.IsProper env ∧ e.Converts env := by
      unfold IsExecutable
      split
      · cases plain
      · rfl
    rw [execute_of_isAssignment_eq_false env plain, faultOf_map, faultOf_eq_none_iff,
      exists_evaluate_iff, same]
  · rw [execute_assign, faultOf_map, faultOf_eq_none_iff, exists_evaluate_iff]
    simp [IsExecutable]
  · rw [execute_badTarget other]
    refine iff_of_false nofun ?_
    rintro ⟨⟨x, rfl⟩, _⟩
    cases other

/-- No statement that succeeds has an assignment below its root. -/
theorem assign_notMem_subtrees {l r : Expr} (executable : e.IsExecutable env) :
    binary .assign l r ∉ e.subtrees.tail := by
  intro member
  unfold IsExecutable at executable
  split at executable
  · next left right =>
    obtain ⟨⟨x, rfl⟩, proper, _⟩ := executable
    -- The target is a name, so that the assignment stands on the right.
    have inRight : binary .assign l r ∈ right.subtrees := by
      simpa [subtrees] using member
    cases proper.operators _ _ _ inRight
  · cases executable.1.operators _ _ _ (List.mem_of_mem_tail member)

/-- In an environment whose integers can be converted, every operand can be. -/
theorem converts_of_isConvertible (convertible : env.IsConvertible) (e : Expr) :
    e.Converts env := by
  intro op left right a b _ first second _
  exact ⟨satisfies_evaluate convertible (fun _ => Number.isConvertible_of_fits) first,
    satisfies_evaluate convertible (fun _ => Number.isConvertible_of_fits) second⟩

end Expr

/-- A statement succeeds exactly when, apart from an assignment of its root to a name, its signs
negate, its binary operators combine numbers, its leaves have numbers, no integer is divided by zero
and no operation of reals has an operand that cannot be converted. It fails with the fault of the
first of its checks that does not pass; an assignment below the root is such a fault. Operands that
cannot be converted come from an environment that has them. -/
theorem evaluation_reports_the_first_fault (env : Environment) (e : Expr) :
    ((∃ value after, e.execute env = .ok (value, after)) ↔ e.IsExecutable env) ∧
    (∀ fault, e.execute env = .error fault ↔
      e.statementChecks.findSome? (Check.fault? env) = some fault) ∧
    (∀ l r, .binary .assign l r ∈ e.subtrees.tail → ∃ fault, e.execute env = .error fault) ∧
    (env.IsConvertible → e.Converts env) := by
  refine ⟨Expr.exists_execute_iff, fun fault => ?_, fun l r member => ?_,
    fun convertible => Expr.converts_of_isConvertible convertible e⟩
  · rw [Expr.findSome?_statementChecks, faultOf_eq_some_iff]
  · cases result : e.execute env with
    | error fault => exact ⟨fault, rfl⟩
    | ok outcome =>
      have executable := Expr.exists_execute_iff.mp ⟨outcome.1, outcome.2, result⟩
      exact absurd member (Expr.assign_notMem_subtrees executable)

/-- The tree of `-(1 / 0) + (y = x)`. -/
def quotientPlusAssignment : Expr :=
  .binary .plus (.unary .negate (.binary .divide (.integer 1) (.integer 0)))
    (.binary .assign (.identifier "y") (.identifier "x"))

/-- The division is checked before the assignment on its right, though a misplaced operator is
found without the numbers of its operands. -/
theorem quotientPlusAssignment_divides_first :
    quotientPlusAssignment.execute .empty = .error .divisionByZero := by
  refine ((evaluation_reports_the_first_fault .empty quotientPlusAssignment).2.1 _).mpr ?_
  decide +kernel

/-- An integer beyond the double format is not added to a real, although the tree is proper. -/
theorem hugeInteger_is_not_converted :
    (Expr.binary .plus (.identifier "a") (.real (.number 1))).IsProper
        (Environment.empty.assign "a" (.integer (10 ^ 400))) ∧
    (Expr.binary .plus (.identifier "a") (.real (.number 1))).execute
        (Environment.empty.assign "a" (.integer (10 ^ 400))) = .error .integerTooLarge := by
  have huge : ¬(Number.integer (10 ^ 400)).IsConvertible := by
    have beyond : conversionBound ≤ (10 ^ 400 : Int).natAbs := by decide +kernel
    exact Nat.not_lt.mpr beyond
  generalize (10 ^ 400 : Int) = n at huge
  refine ⟨⟨?_, ?_, ?_, ?_, ?_⟩, ?_⟩
  · simp [Expr.subtrees]
  · rintro op left right member
    obtain ⟨rfl, _⟩ : op = .plus ∧ _ := by simpa [Expr.subtrees] using member
    rfl
  · simp [Expr.subtrees]
  · simp [Expr.subtrees, Environment.contains]
  · simp [Expr.subtrees]
  · have reals : Number.UsesReals .plus (.integer n) (.ofBinary (.number 1)) := trivial
    rw [Expr.execute_of_isAssignment_eq_false _ rfl]
    simp only [Expr.evaluate, Environment.lookup_assign_self]
    rw [Number.apply_eq_integerTooLarge reals fun both => huge both.1]
    rfl

end Calculator
