import Calculator.Expr
import Calculator.Number
import Calculator.Text.Json

/-!
# Trees as JSON

A tree is written as nested objects over several lines. Each names the kind of its node
first and then the fields of the node; operators appear by name.
-/

namespace Calculator.Expr

/-- The text of a tree whose braces stand a number of spaces from the margin. -/
def jsonAt (indent : Nat) (expr : Expr) : String :=
  let node (fields : List (String × String)) : String :=
    Text.jsonObject indent (("_type", Text.jsonString expr.kindName) :: fields)
  match expr with
  | identifier name => node [("name", Text.jsonString name)]
  | integer value => node [("value", integerText value)]
  | real value => node [("value", value.doubleText)]
  | unary op operand =>
    node [("op", Text.jsonString op.name), ("operand", operand.jsonAt (indent + 2))]
  | binary op left right =>
    node [("op", Text.jsonString op.name), ("left", left.jsonAt (indent + 2)),
      ("right", right.jsonAt (indent + 2))]
  | blank => node []

def json (expr : Expr) : String :=
  expr.jsonAt 0

def jsonOrNull : Option Expr → String
  | some expr => expr.json
  | none => "null"

end Calculator.Expr
