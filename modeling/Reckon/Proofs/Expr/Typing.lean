import Reckon.Proofs.Expr.Fault

/-!
# Types of expressions

Values are of four types. Which type the value of an expression has, and whether, why
and where its evaluation fails, is inferred from the types of its literals and the kinds
of its operators alone. So two trees that agree in these fail or succeed together,
whatever the values in them are.
-/

namespace Reckon

inductive ValueType where
  | nil | boolean | number | text
  deriving DecidableEq, Repr

def Value.type : Value → ValueType
  | .nil => .nil
  | .boolean _ => .boolean
  | .number _ => .number
  | .text _ => .text

/-- Why an evaluation fails, whichever token the operator is. -/
inductive Cause where
  | mistyped (error : TypeError)
  | misplaced (operator : MisplacedOperator)
  deriving DecidableEq, Repr

/-- What of a fault does not depend on values and tokens. -/
def EvalError.cause : EvalError → Cause
  | .runtime error => .mistyped error.error
  | .misplaced operator => .misplaced operator

/-- A cause, and the way to the operator that fails. -/
structure Failure where
  path : List Branch
  cause : Cause
  deriving DecidableEq, Repr

/-- A failure in an operand, seen from the operator. -/
def Failure.below (branch : Branch) (failure : Failure) : Failure :=
  { failure with path := branch :: failure.path }

/-- The failure that a fault is. -/
def Fault.failure (fault : Fault) : Failure := ⟨fault.path, fault.error.cause⟩

/-! ## Inference -/

/-- The type of an operation on two numbers. -/
def ValueType.arithmetic (result : ValueType) : ValueType → ValueType → Except Cause ValueType
  | .number, .number => .ok result
  | _, _ => .error (.mistyped .operandsMustBeNumbers)

/-- The type of a sum of numbers or of joined texts. -/
def ValueType.add : ValueType → ValueType → Except Cause ValueType
  | .number, .number => .ok .number
  | .text, .text => .ok .text
  | _, _ => .error (.mistyped .operandsMustBeNumbersOrStrings)

/-- The type of a binary operation. -/
def Kind.inferBinary (kind : Kind) (left right : ValueType) : Except Cause ValueType :=
  match kind with
  | .equalEqual | .bangEqual => .ok .boolean
  | .plus => left.add right
  | .minus | .slash | .star => ValueType.arithmetic .number left right
  | .greater | .greaterEqual | .less | .lessEqual => ValueType.arithmetic .boolean left right
  | kind => .error (.misplaced (.binary kind))

/-- The type of an operand behind a sign. -/
def Kind.inferUnary (kind : Kind) (operand : ValueType) : Except Cause ValueType :=
  match kind, operand with
  | .minus, .number => .ok .number
  | .minus, _ => .error (.mistyped .operandMustBeNumber)
  | .bang, _ => .ok .boolean
  | kind, _ => .error (.misplaced (.unary kind))

namespace Expr

/-- The type of the value of an expression, or the failure of its evaluation. -/
def infer : Expr → Except Failure ValueType
  | .literal value => .ok value.type
  | .grouping inner => inner.infer
  | .unary operator operand => do
      let operand ← operand.infer.mapError (Failure.below .operand)
      (operator.kind.inferUnary operand).mapError (Failure.mk [])
  | .binary operator left right => do
      let right ← right.infer.mapError (Failure.below .right)
      let left ← left.infer.mapError (Failure.below .left)
      (operator.kind.inferBinary left right).mapError (Failure.mk [])

theorem applyUnary_type (operator : Token) (operand : Value) :
    ((applyUnary operator operand).map Value.type).mapError EvalError.cause =
      operator.kind.inferUnary operand.type := by
  obtain ⟨kind, lexeme, literal, line⟩ := operator
  cases kind <;> cases operand <;> rfl

theorem applyBinary_type (operator : Token) (left right : Value) :
    ((applyBinary operator left right).map Value.type).mapError EvalError.cause =
      operator.kind.inferBinary left.type right.type := by
  obtain ⟨kind, lexeme, literal, line⟩ := operator
  cases kind <;> first
    | rfl
    | cases left <;> cases right <;> rfl

/-- What is inferred is what evaluation does, seen without values and tokens. -/
theorem infer_eq_locate (expr : Expr) :
    expr.infer = (expr.locate.map Value.type).mapError Fault.failure := by
  induction expr with
  | literal value => rfl
  | grouping inner ih => exact ih
  | unary operator operand ih =>
      rw [infer, locate, ih]
      cases operand.locate with
      | error fault => rfl
      | ok value =>
          have applied := applyUnary_type operator value
          change (operator.kind.inferUnary value.type).mapError (Failure.mk []) =
            (((applyUnary operator value).mapError (Fault.mk [])).map Value.type).mapError
              Fault.failure
          rw [← applied]
          cases applyUnary operator value <;> rfl
  | binary operator left right leftIH rightIH =>
      rw [infer, locate, leftIH, rightIH]
      cases right.locate with
      | error fault => rfl
      | ok rightValue =>
          cases left.locate with
          | error fault => rfl
          | ok leftValue =>
              have applied := applyBinary_type operator leftValue rightValue
              change (operator.kind.inferBinary leftValue.type rightValue.type).mapError
                  (Failure.mk []) =
                (((applyBinary operator leftValue rightValue).mapError (Fault.mk [])).map
                  Value.type).mapError Fault.failure
              rw [← applied]
              cases applyBinary operator leftValue rightValue <;> rfl

end Expr

/-! ## The operator at fault -/

/-- What an operator is at fault for: a type error that names it, or that it is
misplaced, which names no more of it than its kind. -/
inductive Token.AtFault (operator : Token) : EvalError → Prop where
  | mistyped (error : TypeError) : AtFault operator (.runtime ⟨error, operator⟩)
  | misplacedUnary : AtFault operator (.misplaced (.unary operator.kind))
  | misplacedBinary : AtFault operator (.misplaced (.binary operator.kind))

namespace Expr

theorem applyUnary_atFault {operator : Token} {operand : Value} {error : EvalError}
    (failed : applyUnary operator operand = .error error) : operator.AtFault error := by
  obtain ⟨kind, lexeme, literal, line⟩ := operator
  cases kind <;> cases operand <;> cases failed <;> constructor

theorem applyBinary_atFault {operator : Token} {left right : Value} {error : EvalError}
    (failed : applyBinary operator left right = .error error) : operator.AtFault error := by
  unfold applyBinary at failed
  split at failed
  case h_1 | h_2 => cases failed
  case h_3 =>
      obtain ⟨type, rfl⟩ := add_error failed
      exact .mistyped type
  case h_11 =>
      cases failed
      exact .misplacedBinary
  all_goals
    obtain ⟨type, rfl⟩ := arithmetic_error failed
    exact .mistyped type

/-- Evaluation fails at the operator at the end of a way from the root. -/
structure FailsAt (expr : Expr) (path : List Branch) (operator : Token) (error : EvalError) :
    Prop where
  evaluated : expr.eval = .error error
  located : expr.locate = .error ⟨path, error⟩
  found : expr.operatorAt? path = some operator
  fault : operator.AtFault error

variable {expr : Expr} {path : List Branch} {operator : Token} {error : EvalError}

theorem FaultAt.atFault (fault : expr.FaultAt path operator error) : operator.AtFault error := by
  induction fault with
  | sign failed => exact applyUnary_atFault failed
  | operator failed => exact applyBinary_atFault failed
  | grouping _ ih | operand _ ih | left _ ih | right _ ih => exact ih

/-- Evaluation that fails does so at an operator of the tree, whatever the operators
of the tree are. -/
theorem failsAt_of_locate {fault : Fault} (failed : expr.locate = .error fault) :
    ∃ operator, expr.FailsAt fault.path operator fault.error := by
  have evaluated : expr.eval = .error fault.error := by rw [eval_eq_locate, failed]; rfl
  obtain ⟨operator, faultAt⟩ := faultAt_of_locate failed
  exact ⟨operator, evaluated, failed, faultAt.operatorAt?, faultAt.atFault⟩

/-! ## Trees that agree in their types -/

/-- Trees of one shape, with operators of the same kinds at the same places and literals
of the same types. Nothing is said about the literals otherwise, nor about how and where
the operators are written. -/
inductive Alike : Expr → Expr → Prop where
  | literal {left right : Value} :
      left.type = right.type → Alike (.literal left) (.literal right)
  | grouping {left right : Expr} :
      Alike left right → Alike (.grouping left) (.grouping right)
  | unary {leftOperator rightOperator : Token} {left right : Expr} :
      leftOperator.kind = rightOperator.kind → Alike left right →
      Alike (.unary leftOperator left) (.unary rightOperator right)
  | binary {leftOperator rightOperator : Token} {left left' right right' : Expr} :
      leftOperator.kind = rightOperator.kind → Alike left right → Alike left' right' →
      Alike (.binary leftOperator left left') (.binary rightOperator right right')

variable {left right : Expr}

theorem Alike.infer_eq (alike : left.Alike right) : left.infer = right.infer := by
  induction alike with
  | literal type => rw [infer, infer, type]
  | grouping _ ih => exact ih
  | unary kind _ ih => rw [infer, infer, kind, ih]
  | binary kind _ _ leftIH rightIH => rw [infer, infer, kind, leftIH, rightIH]

/-- How two evaluations end alike: with values of one type, or at the operators at the
end of one way, which are at fault for the same type error or for the same misplacement. -/
inductive SameOutcome (left right : Expr) : Prop where
  | value {leftValue rightValue : Value} :
      left.eval = .ok leftValue → right.eval = .ok rightValue →
      leftValue.type = rightValue.type → SameOutcome left right
  | mistyped {path : List Branch} {leftOperator rightOperator : Token} {error : TypeError} :
      left.FailsAt path leftOperator (.runtime ⟨error, leftOperator⟩) →
      right.FailsAt path rightOperator (.runtime ⟨error, rightOperator⟩) →
      SameOutcome left right
  | misplaced {path : List Branch} {leftOperator rightOperator : Token}
      {operator : MisplacedOperator} :
      left.FailsAt path leftOperator (.misplaced operator) →
      right.FailsAt path rightOperator (.misplaced operator) → SameOutcome left right

/-- Evaluations that fail at the end of one way and with one cause end alike. -/
theorem FailsAt.sameOutcome {leftOperator rightOperator : Token}
    {leftError rightError : EvalError} (leftFails : left.FailsAt path leftOperator leftError)
    (rightFails : right.FailsAt path rightOperator rightError)
    (cause : leftError.cause = rightError.cause) : SameOutcome left right := by
  cases leftError with
  | misplaced operator =>
      cases rightError <;> cases cause
      exact .misplaced leftFails rightFails
  | runtime leftError =>
      cases rightError with
      | misplaced operator => cases cause
      | runtime rightError =>
          cases leftFails.fault
          cases rightFails.fault
          cases cause
          exact .mistyped leftFails rightFails

/-- Whether an expression can be evaluated, what type its value has, and why and at
which operator its evaluation fails depends on no value in it: two trees with the same
operators and with literals of the same types are evaluated alike. -/
theorem sameOutcome_of_alike (alike : left.Alike right) : SameOutcome left right := by
  have inferred := alike.infer_eq
  rw [infer_eq_locate, infer_eq_locate] at inferred
  cases leftLocated : left.locate with
  | ok leftValue =>
      cases rightLocated : right.locate with
      | error fault =>
          rw [leftLocated, rightLocated] at inferred
          cases inferred
      | ok rightValue =>
          rw [leftLocated, rightLocated] at inferred
          apply SameOutcome.value (by rw [eval_eq_locate, leftLocated]; rfl)
            (by rw [eval_eq_locate, rightLocated]; rfl)
          exact Except.ok.inj inferred
  | error leftFault =>
      cases rightLocated : right.locate with
      | ok value =>
          rw [leftLocated, rightLocated] at inferred
          cases inferred
      | error rightFault =>
          rw [leftLocated, rightLocated] at inferred
          obtain ⟨path, cause⟩ := Failure.mk.inj (Except.error.inj inferred)
          obtain ⟨leftOperator, leftFails⟩ := failsAt_of_locate leftLocated
          obtain ⟨rightOperator, rightFails⟩ := failsAt_of_locate rightLocated
          rw [path] at leftFails
          exact leftFails.sameOutcome rightFails cause

/-- The numbers and texts of two trees differ, and both fail at their inner sign. -/
theorem sameOutcome_negated_text :
    let minus (line : Nat) : Token := ⟨.minus, "-", none, line⟩
    let plus (line : Nat) : Token := ⟨.plus, "+", none, line⟩
    let tree (line : Nat) (number : Float) (text : String) : Expr :=
      .binary (plus line) (.literal (.number number))
        (.grouping (.unary (minus (line + 1)) (.literal (.text text))))
    (tree 1 (0 / 0) "").Alike (tree 7 1 "one") ∧
      SameOutcome (tree 1 (0 / 0) "") (tree 7 1 "one") := by
  intro minus plus tree
  have alike : (tree 1 (0 / 0) "").Alike (tree 7 1 "one") :=
    .binary rfl (.literal rfl) (.grouping (.unary rfl (.literal rfl)))
  exact ⟨alike, sameOutcome_of_alike alike⟩

end Expr

end Reckon
