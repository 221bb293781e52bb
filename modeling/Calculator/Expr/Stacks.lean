import Calculator.Expr
import Calculator.Token

/-!
# Operator and operand stacks

Operators wait on one stack until their operands are complete on another. A reduction
takes the top operator with as many operands as it needs and puts one tree back. A
sentinel ends a scope: no reduction goes past it. The top of a stack is the head of its
list. A failing step tells what it left behind.
-/

namespace Calculator

/-- Why tokens form no statement. -/
inductive ParseError where
  | operandMissing
  | unexpectedToken (token : Token)
  | closingMissing
  | closingExpected (token : Token)
  | nameExpected (column : Int)
  | targetExpected
  | trailing (token : Token)
  | literalTooLarge (token : Token)
  | operandsMissing (op : Operator) (available : Nat)
  | scopeExhausted
  | unreduced (operands : Nat) (operators : Int)
  | nothingOnTop
  | nothingToPop
  deriving DecidableEq, Repr

namespace ParseError

/-- Where the fault stands, if it stands at a token. -/
def column? : ParseError → Option Int
  | unexpectedToken token | closingExpected token | trailing token | literalTooLarge token =>
    some token.column
  | nameExpected column => some column
  | _ => none

/-- What went wrong, without the place. -/
def description : ParseError → String
  | operandMissing => "Expected an operand but reached end of input"
  | unexpectedToken token =>
    "Unexpected token " ++ token.kind.name ++ " (" ++ Text.quoted token.text ++ ")"
  | closingMissing => "Expected ')' but reached end of input"
  | closingExpected token => "Expected ')' but got " ++ Text.quoted token.text
  | nameExpected _ => "Expected identifier after 'let'"
  | targetExpected => "Left side of '=' must be an identifier"
  | trailing token => "Unexpected trailing input starting at " ++ Text.quoted token.text
  | literalTooLarge token => "Integer literal out of range: " ++ token.text
  | operandsMissing op available =>
    "Internal parser error: operator " ++ op.name ++ " needs " ++ toString op.arity
      ++ " operands, " ++ toString available ++ " available"
  | scopeExhausted => "Internal parser error: attempted to reduce past a sentinel"
  | unreduced operands operators =>
    "Internal parser error: " ++ toString operands ++ " operands and " ++ toString operators
      ++ " operators left after parsing"
  | nothingOnTop => "list index out of range"
  | nothingToPop => "pop from empty list"

/-- Whether the fault is one of the steps and not of the tokens: a step needed an
operator and the stack had none, not even a sentinel. -/
def isStackFault : ParseError → Bool
  | nothingOnTop | nothingToPop => true
  | _ => false

def message (error : ParseError) : String :=
  if error.isStackFault then error.description
  else
    match error.column? with
    | some column => "[ParseError] Col " ++ toString column ++ ": " ++ error.description
    | none => "[ParseError] " ++ error.description

end ParseError

/-- The operators that wait and the operands that are complete, the latest first. -/
structure Stacks where
  operators : List Operator
  operands : List Expr
  deriving DecidableEq, Repr

/-- The trees left after an operator took its operands. The target of an assignment has
to be an identifier; both operands are gone when it is not. -/
def combine (op : Operator) (operands : List Expr) :
    Except (ParseError × List Expr) (List Expr) :=
  match op.arity, operands with
  -- Only a sentinel takes no operand.
  | 0, _ => .error (.scopeExhausted, operands)
  | 1, operand :: rest => .ok (.unary op operand :: rest)
  | 2, right :: left :: rest =>
    if op = .assign ∧ left.isIdentifier = false then .error (.targetExpected, rest)
    else .ok (.binary op left right :: rest)
  | _, _ => .error (.operandsMissing op operands.length, operands)

namespace Stacks

def start : Stacks :=
  ⟨[.sentinel], []⟩

def addOperand (s : Stacks) (operand : Expr) : Stacks :=
  ⟨s.operators, operand :: s.operands⟩

/-- Puts an operator on its stack with no reduction before it. -/
def addOperator (s : Stacks) (op : Operator) : Stacks :=
  ⟨op :: s.operators, s.operands⟩

def dropOperator (s : Stacks) : Stacks :=
  ⟨s.operators.tail, s.operands⟩

/-- Reduces the top operator. It is gone whether or not the reduction succeeds. -/
def reduce (s : Stacks) : Except (ParseError × Stacks) Stacks :=
  match s.operators with
  | [] => .error (.nothingToPop, s)
  | op :: below =>
    match combine op s.operands with
    | .ok operands => .ok ⟨below, operands⟩
    | .error (error, operands) => .error (error, ⟨below, operands⟩)

def reduceWhile (isComplete : Operator → Bool) (operators : List Operator)
    (operands : List Expr) : Except (ParseError × Stacks) Stacks :=
  match operators with
  | [] => .error (.nothingOnTop, ⟨[], operands⟩)
  | top :: below =>
    if isComplete top then
      match combine top operands with
      | .ok operands => reduceWhile isComplete below operands
      | .error (error, operands) => .error (error, ⟨below, operands⟩)
    else .ok ⟨top :: below, operands⟩

/-- Pushes an operator after reducing those that are complete before it. -/
def push (s : Stacks) (op : Operator) : Except (ParseError × Stacks) Stacks :=
  match reduceWhile (·.yieldsTo op) s.operators s.operands with
  | .ok s => .ok (s.addOperator op)
  | .error failure => .error failure

/-- Reduces everything above the latest sentinel. -/
def unwind (s : Stacks) : Except (ParseError × Stacks) Stacks :=
  reduceWhile (· != .sentinel) s.operators s.operands

end Stacks

end Calculator
