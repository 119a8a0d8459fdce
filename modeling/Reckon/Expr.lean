import Reckon.Token

/-!
# Expressions

The syntax trees of the language, and what they evaluate to. Operators are kept as
the tokens they were written as, so that a fault of evaluation can be traced to its
line; nothing keeps a tree from having a token at an operator's place that is no
operator.
-/

namespace Reckon

/-- A syntax tree. -/
inductive Expr where
  | literal (value : Value)
  | grouping (inner : Expr)
  | unary (operator : Token) (operand : Expr)
  | binary (operator : Token) (left right : Expr)
  deriving DecidableEq, Inhabited

namespace Expr

/-- Equality of trees. Literals are compared as values of the language, so a tree
with a NaN in it is not even equal to itself. -/
def equals : Expr → Expr → Bool
  | .literal left, .literal right => left == right
  | .grouping left, .grouping right => left.equals right
  | .unary leftOperator left, .unary rightOperator right =>
      leftOperator == rightOperator && left.equals right
  | .binary leftOperator left left', .binary rightOperator right right' =>
      leftOperator == rightOperator && left.equals right && left'.equals right'
  | _, _ => false

instance : BEq Expr := ⟨equals⟩

/-- A tree written with every operator in front of its operands and parentheses
around both. -/
def toText : Expr → String
  | .literal value => value.toText
  | .grouping inner => "(group " ++ inner.toText ++ ")"
  | .unary operator operand => "(" ++ operator.lexeme ++ " " ++ operand.toText ++ ")"
  | .binary operator left right =>
      "(" ++ operator.lexeme ++ " " ++ left.toText ++ " " ++ right.toText ++ ")"

end Expr

/-!
## Evaluation

An expression has a value unless an operator meets operands of the wrong kind.
The right operand is evaluated before the left one, so of two faults the one
further right is found. A tree may also carry a token as its operator that is
none; this is found only when the operands are there.
-/

/-- The kinds of operands that an operator insists on. -/
inductive TypeError where
  | operandMustBeNumber
  | operandsMustBeNumbers
  | operandsMustBeNumbersOrStrings
  deriving DecidableEq, Repr

def TypeError.message : TypeError → String
  | .operandMustBeNumber => "Operand must be a number."
  | .operandsMustBeNumbers => "Operands must be a number."
  | .operandsMustBeNumbersOrStrings => "Operands must be two numbers or two strings."

/-- A type error, and the operator that it happened at. -/
structure RuntimeError where
  error : TypeError
  operator : Token
  deriving DecidableEq

/-- A type error as a diagnostic: the line of the operator says where. -/
def RuntimeError.diagnostic (error : RuntimeError) : Diagnostic :=
  ⟨.runtime, error.operator.line, .unspecified, error.error.message⟩

/-- A token at the place of an operator that is no operator there. -/
inductive MisplacedOperator where
  | binary (kind : Kind)
  | unary (kind : Kind)
  deriving DecidableEq, Repr

/-- The message for a tree that no source text has. -/
def MisplacedOperator.message : MisplacedOperator → String
  | .binary kind =>
      "internal error: entered unreachable code: Invalid binary operator: " ++ kind.name
  | .unary kind =>
      "internal error: entered unreachable code: Invalid unary operator: " ++ kind.name

inductive EvalError where
  | runtime (error : RuntimeError)
  | misplaced (operator : MisplacedOperator)
  deriving DecidableEq

namespace Expr

def arithmetic (operator : Token) (compute : Float → Float → Value) :
    Value → Value → Except EvalError Value
  | .number left, .number right => .ok (compute left right)
  | _, _ => .error (.runtime ⟨.operandsMustBeNumbers, operator⟩)

/-- Add two numbers or join two texts. -/
def add (operator : Token) : Value → Value → Except EvalError Value
  | .number left, .number right => .ok (.number (left + right))
  | .text left, .text right => .ok (.text (left ++ right))
  | _, _ => .error (.runtime ⟨.operandsMustBeNumbersOrStrings, operator⟩)

/-- Apply a binary operator. Division by zero is no fault of doubles. -/
def applyBinary (operator : Token) (left right : Value) : Except EvalError Value :=
  match operator.kind with
  | .equalEqual => .ok (.boolean (left == right))
  | .bangEqual => .ok (.boolean (left != right))
  | .plus => add operator left right
  | .minus => arithmetic operator (fun left right => .number (left - right)) left right
  | .slash => arithmetic operator (fun left right => .number (left / right)) left right
  | .star => arithmetic operator (fun left right => .number (left * right)) left right
  | .greater => arithmetic operator (fun left right => .boolean (left > right)) left right
  | .greaterEqual =>
      arithmetic operator (fun left right => .boolean (left ≥ right)) left right
  | .less => arithmetic operator (fun left right => .boolean (left < right)) left right
  | .lessEqual => arithmetic operator (fun left right => .boolean (left ≤ right)) left right
  | kind => .error (.misplaced (.binary kind))

def applyUnary (operator : Token) (operand : Value) : Except EvalError Value :=
  match operator.kind, operand with
  | .minus, .number operand => .ok (.number (-operand))
  | .minus, _ => .error (.runtime ⟨.operandMustBeNumber, operator⟩)
  | .bang, operand => .ok (.boolean (!operand.isTruthy))
  | kind, _ => .error (.misplaced (.unary kind))

def eval : Expr → Except EvalError Value
  | .literal value => .ok value
  | .grouping inner => inner.eval
  | .unary operator operand => do
      let operand ← operand.eval
      applyUnary operator operand
  | .binary operator left right => do
      let right ← right.eval
      let left ← left.eval
      applyBinary operator left right

end Expr

end Reckon
