import Calculator.Expr.Stacks
import Calculator.Number.Decimal
import Calculator.Number.Wrapped

/-!
# Reading an expression from tokens

An expression is a sequence of primaries with binary operators between them. A primary
is a name, which may follow the keyword, a literal, an expression in parentheses, or a
primary after a minus sign. Tokens are read once from left to right; between two tokens
either an operand or an operator is due, and the depth counts the parentheses that are
open. A prefix minus waits on the operator stack, a parenthesis puts a sentinel there, and
ranks decide all grouping.

The number of an integer token is read however many digits it has. A limit to that number, as
the machine sets one at 4300 digits unless it is told otherwise, is left out; only leading zeros
could reach it, since a token keeps to the magnitudes of 32 bits.
-/

namespace Calculator

def Token.integer? (token : Token) : Option Int :=
  let (negative, digits) := Decimal.readSign token.text.toList
  if digits ≠ [] ∧ digits.all Token.isDigit then
    let size : Int := Token.digitsValue digits
    some (if negative then -size else size)
  else none

/-- The value of a token that spells a real: the numeral is read in the double format and
rounded to the single one. -/
def Token.real? (token : Token) : Option Binary :=
  (Decimal.read? token.text.toList).map fun (negative, d) =>
    Format.single.round (Format.double.ofDecimal negative d)

/-- The tokens still to be read, and the stacks. -/
structure Progress where
  rest : List Token
  «stacks» : Stacks
  deriving DecidableEq, Repr

/-- How much is to be read: one primary, or primaries as long as operators follow. -/
inductive Extent where
  | primary
  | expression
  deriving DecidableEq, Repr

mutual

/-- Reads on where an operand is due. After a minus sign an integer literal may have the
magnitude of the smallest integer. A literal that is no numeral is no operand. -/
def readOperand (extent : Extent) (negated : Bool) (depth : Nat) (tokens : List Token)
    (s : Stacks) : Except (ParseError × Progress) Progress :=
  match tokens with
  | [] => .error (.operandMissing, ⟨[], s⟩)
  | token :: rest =>
    match token.kind with
    | .letWord =>
      match rest with
      | [] => .error (.nameExpected token.column, ⟨[], s⟩)
      | name :: rest =>
        if name.kind = .identifier then
          readOperator extent depth rest (s.addOperand (.identifier name.text))
        else .error (.nameExpected name.column, ⟨name :: rest, s⟩)
    | .identifier => readOperator extent depth rest (s.addOperand (.identifier token.text))
    | .integer =>
      match token.integer? with
      | some n =>
        if largestInteger < n ∧ negated = false then
          .error (.literalTooLarge token, ⟨token :: rest, s⟩)
        else readOperator extent depth rest (s.addOperand (.integer n))
      | none => .error (.unexpectedToken token, ⟨token :: rest, s⟩)
    | .real =>
      match token.real? with
      | some x => readOperator extent depth rest (s.addOperand (.real x))
      | none => .error (.unexpectedToken token, ⟨token :: rest, s⟩)
    | .leftParen => readOperand extent false (depth + 1) rest (s.addOperator .sentinel)
    | .minus => readOperand extent true depth rest (s.addOperator .negate)
    | _ => .error (.unexpectedToken token, ⟨token :: rest, s⟩)

/-- Reads on where an operator is due. Whatever is no binary operator ends the
expression, which has to be a closing parenthesis while one is open. -/
def readOperator (extent : Extent) (depth : Nat) (tokens : List Token) (s : Stacks) :
    Except (ParseError × Progress) Progress :=
  -- Inside parentheses a primary holds a whole expression.
  if extent = .primary ∧ depth = 0 then .ok ⟨tokens, s⟩
  else
    match tokens with
    | [] =>
      match s.unwind with
      | .error (error, s) => .error (error, ⟨[], s⟩)
      | .ok s =>
        match depth with
        | 0 => .ok ⟨[], s⟩
        | _ + 1 => .error (.closingMissing, ⟨[], s⟩)
    | token :: rest =>
      match token.kind.binaryOperator? with
      | some op =>
        match s.push op with
        | .error (error, s) => .error (error, ⟨rest, s⟩)
        | .ok s => readOperand extent false depth rest s
      | none =>
        match s.unwind with
        | .error (error, s) => .error (error, ⟨token :: rest, s⟩)
        | .ok s =>
          match depth with
          | 0 => .ok ⟨token :: rest, s⟩
          | depth + 1 =>
            if token.kind = .rightParen then readOperator extent depth rest s.dropOperator
            else .error (.closingExpected token, ⟨token :: rest, s⟩)

end

/-- The reading of a statement: all its tokens, those still to be read, and the stacks. -/
structure Reading where
  tokens : List Token
  rest : List Token
  «stacks» : Stacks
  deriving DecidableEq, Repr

namespace Reading

def start (tokens : List Token) : Reading :=
  ⟨tokens, tokens, .start⟩

def position (r : Reading) : Nat :=
  r.tokens.length - r.rest.length

/-- The state after a step that changes the stacks only. -/
def withStacks (r : Reading) (outcome : Except (ParseError × Stacks) Stacks) :
    Except (ParseError × Reading) Reading :=
  match outcome with
  | .ok s => .ok ⟨r.tokens, r.rest, s⟩
  | .error (error, s) => .error (error, ⟨r.tokens, r.rest, s⟩)

/-- The state after a step that reads tokens. -/
def withProgress (r : Reading) (outcome : Except (ParseError × Progress) Progress) :
    Except (ParseError × Reading) Reading :=
  match outcome with
  | .ok p => .ok ⟨r.tokens, p.rest, p.stacks⟩
  | .error (error, p) => .error (error, ⟨r.tokens, p.rest, p.stacks⟩)

def push (r : Reading) (op : Operator) : Except (ParseError × Reading) Reading :=
  r.withStacks (r.stacks.push op)

def reduce (r : Reading) : Except (ParseError × Reading) Reading :=
  r.withStacks r.stacks.reduce

def unwind (r : Reading) : Except (ParseError × Reading) Reading :=
  r.withStacks r.stacks.unwind

def primary (r : Reading) (negated : Bool) : Except (ParseError × Reading) Reading :=
  r.withProgress (readOperand .primary negated 0 r.rest r.stacks)

/-- Reads an expression and reduces it to one operand. -/
def expression (r : Reading) : Except (ParseError × Reading) Reading :=
  r.withProgress (readOperand .expression false 0 r.rest r.stacks)

/-- Reads the statement to its end and takes its tree off the stack. A statement without
tokens has no tree. -/
def statement (r : Reading) : Except (ParseError × Reading) (Option Expr × Reading) :=
  if r.tokens = [] then .ok (none, r)
  else
    match r.expression with
    | .error failure => .error failure
    | .ok r =>
      match r.rest with
      | token :: _ => .error (.trailing token, r)
      | [] =>
        match r.stacks with
        | ⟨[.sentinel], [expr]⟩ => .ok (some expr, ⟨r.tokens, [], ⟨[.sentinel], []⟩⟩)
        | s => .error (.unreduced s.operands.length (s.operators.length - 1), r)

end Reading

/-- The tree of a statement; a statement without tokens has none. -/
def Expr.ofTokens (tokens : List Token) : Except ParseError (Option Expr) :=
  match (Reading.start tokens).statement with
  | .ok (expr, _) => .ok expr
  | .error (error, _) => .error error

end Calculator
