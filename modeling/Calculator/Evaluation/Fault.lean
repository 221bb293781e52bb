import Calculator.Expr
import Calculator.Text.Quoted

/-!
# Faults of an evaluation

Why a tree has no value. Each cause belongs to one node of the tree.
-/

namespace Calculator

inductive Position where
  | unary
  | binary
  | nested
  deriving DecidableEq, Repr

def Position.description : Position → String
  | unary => "as a unary operator"
  | binary => "as a binary operator"
  | nested => "inside an expression"

inductive Fault where
  | unassigned (name : String)
  | divisionByZero
  | badTarget (target : Expr)
  | misplaced (op : Operator) (position : Position)
  | notEvaluable (node : Expr)
  | integerTooLarge
  deriving DecidableEq, Repr

namespace Fault

/-- What went wrong, without the mark of an evaluation. -/
def description : Fault → String
  | unassigned name => "Variable " ++ Text.quoted name ++ " used before assignment"
  | divisionByZero => "Integer division by zero"
  | badTarget target => "Cannot assign to " ++ target.kindName
  | misplaced op position =>
    "Operator " ++ Text.quoted op.symbol ++ " cannot appear " ++ position.description
  | notEvaluable node => "Cannot evaluate node of type " ++ node.kindName
  | integerTooLarge => "int too large to convert to float"

/-- Whether the fault is one of a statement. A node of no kind and an integer with no real
near it are faults of the caller: no statement has the one, and no calculation makes the
other. -/
def isOfStatement : Fault → Bool
  | notEvaluable _ | integerTooLarge => false
  | _ => true

/-- The description of the fault, marked as one of an evaluation if a statement can have
it. -/
def message (fault : Fault) : String :=
  if fault.isOfStatement then "[EvaluationError] " ++ fault.description
  else fault.description

end Fault

end Calculator
