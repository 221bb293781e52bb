import Calculator.Number.Binary
import Calculator.Operator

/-!
# Expressions

The tree of a statement. Reading a statement builds only trees whose unary nodes negate,
whose binary nodes carry a binary operator, and whose assignments have an identifier on
the left; the type admits any operator at any node, and a blank node, so that the rules
of evaluation can be stated for malformed trees too.
-/

namespace Calculator

/-- A tree of literals, names and operators. -/
inductive Expr where
  | identifier (name : String)
  | integer (value : Int)
  | real (value : Binary)
  | unary (op : Operator) (operand : Expr)
  | binary (op : Operator) (left right : Expr)
  | blank
  deriving DecidableEq, Repr

/-- An assignment was to be built whose target is no identifier. -/
structure TargetError where
  target : Expr
  deriving DecidableEq, Repr

namespace Expr

def kindName : Expr → String
  | identifier _ => "IdentifierNode"
  | integer _ => "IntegerNode"
  | real _ => "FloatNode"
  | unary .. => "UnaryOpNode"
  | binary .. => "BinaryOpNode"
  | blank => "ASTNode"

def isIdentifier : Expr → Bool
  | identifier _ => true
  | _ => false

/-- Builds a binary node; the target of an assignment has to be an identifier. -/
def mkBinary (op : Operator) (left right : Expr) : Except TargetError Expr :=
  if op = .assign ∧ left.isIdentifier = false then .error ⟨left⟩
  else .ok (binary op left right)

/-- Replaces the left operand of a binary node without a check of the new one. -/
def withLeft : Expr → Expr → Expr
  | binary op _ right, left => binary op left right
  | other, _ => other

end Expr

def TargetError.message (error : TargetError) : String :=
  "Assignment target must be an identifier, got " ++ error.target.kindName

end Calculator
