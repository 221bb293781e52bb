import Calculator.Environment
import Calculator.Number.Arithmetic

/-!
# Evaluation

A tree is evaluated in an environment. An operator is checked before its operands are
evaluated, the left operand before the right one, and a division after both. Only the
root of a statement may assign, and it does so after its right side has a number.
-/

namespace Calculator.Expr

/-- The number of a tree that assigns nothing. -/
def evaluate (env : Environment) : Expr → Except Fault Number
  | identifier name =>
    match env.lookup name with
    | some value => .ok value
    | none => .error (.unassigned name)
  | integer value => .ok (.ofInt value)
  | real value => .ok (.ofBinary value)
  | unary op operand =>
    if op = .negate then
      match operand.evaluate env with
      | .ok value => .ok value.negate
      | .error fault => .error fault
    else .error (.misplaced op .unary)
  | binary op left right =>
    if op = .assign then .error (.misplaced op .nested)
    else if op.isArithmetic = false then .error (.misplaced op .binary)
    else
      match left.evaluate env with
      | .error fault => .error fault
      | .ok a =>
        match right.evaluate env with
        | .error fault => .error fault
        | .ok b => Number.apply op a b
  | blank => .error (.notEvaluable blank)

/-- The value of a statement, with the environment after it. -/
def execute (env : Environment) : Expr → Except Fault (Value × Environment)
  | binary .assign target right =>
    match target with
    | identifier name =>
      match right.evaluate env with
      | .ok value => .ok (.unit, env.assign name value)
      | .error fault => .error fault
    | other => .error (.badTarget other)
  | expr =>
    match expr.evaluate env with
    | .ok value => .ok (.number value, env)
    | .error fault => .error fault

end Calculator.Expr
