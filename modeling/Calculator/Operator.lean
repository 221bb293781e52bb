/-!
# Operators

The operators of an expression, their ranks, and the order that the ranks induce.
A higher rank binds tighter, and equal ranks group to the left unless the operator
is the assignment. The sentinel is no operator of any expression: it marks the bottom
of a scope on the operator stack and ranks below all others.
-/

namespace Calculator

/-- The marker of a scope, the six binary operators, and prefix negation. -/
inductive Operator where
  | sentinel
  | assign
  | plus
  | minus
  | multiply
  | divide
  | negate
  | power
  deriving DecidableEq, Repr

namespace Operator

/-- A higher rank binds tighter. -/
def rank : Operator → Nat
  | sentinel => 0
  | assign => 1
  | plus | minus => 2
  | multiply | divide => 3
  | negate => 4
  | power => 5

/-- The number of operands that a reduction consumes. -/
def arity : Operator → Nat
  | sentinel => 0
  | negate => 1
  | _ => 2

/-- Only the assignment groups to the right among operators of its rank. -/
def leftAssociative : Operator → Bool
  | assign => false
  | _ => true

def isArithmetic : Operator → Bool
  | plus | minus | multiply | divide | power => true
  | _ => false

def symbol : Operator → String
  | sentinel => "<sentinel>"
  | assign => "="
  | plus => "+"
  | minus | negate => "-"
  | multiply => "*"
  | divide => "/"
  | power => "^"

def name : Operator → String
  | sentinel => "SENTINEL"
  | assign => "ASSIGN"
  | plus => "PLUS"
  | minus => "MINUS"
  | multiply => "MULTIPLY"
  | divide => "DIVIDE"
  | negate => "NEGATE"
  | power => "POWER"

def all : List Operator :=
  [sentinel, assign, plus, minus, multiply, divide, negate, power]

def ofName? (name : String) : Option Operator :=
  all.find? fun op => op.name == name

/-- Compares two operators by rank; the comparison is total. -/
def precedence (a b : Operator) : Ordering :=
  compare a.rank b.rank

/-- Whether the operator on top of the stack is complete before the incoming one
is pushed: it binds tighter, or as tightly and the incoming one groups to the left. -/
def yieldsTo (top incoming : Operator) : Bool :=
  match precedence top incoming with
  | .gt => true
  | .eq => incoming.leftAssociative
  | .lt => false

theorem mem_all (op : Operator) : op ∈ all := by
  cases op <;> simp [all]

end Operator

end Calculator
