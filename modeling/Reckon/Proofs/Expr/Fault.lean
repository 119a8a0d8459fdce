import Reckon.Proofs.Expr.Grammar
import Reckon.Proofs.Token.Lexeme

/-!
# Where evaluation fails

A fault of evaluation names the operator that it happens at. Operators may look
alike, so this module also keeps the way to the failing one. Neither parentheses nor
the lines of operators have a part in what an expression evaluates to, nor in where
its evaluation fails.
-/

namespace Reckon

section Errors

variable {ε ε' ε'' α β : Type}

@[simp] theorem mapError_bind (result : Except ε α) (next : α → Except ε β) (change : ε → ε') :
    (result >>= next).mapError change =
      result.mapError change >>= fun value => (next value).mapError change := by
  cases result <;> rfl

@[simp] theorem mapError_mapError (result : Except ε α) (first : ε → ε') (second : ε' → ε'') :
    (result.mapError first).mapError second = result.mapError (second ∘ first) := by
  cases result <;> rfl

@[simp] theorem mapError_id (result : Except ε α) : result.mapError id = result := by
  cases result <;> rfl

theorem bind_eq_error {result : Except ε α} {next : α → Except ε β} {error : ε}
    (failed : (result >>= next) = .error error) :
    result = .error error ∨ ∃ value, result = .ok value ∧ next value = .error error := by
  cases result with
  | error first =>
      cases failed
      exact .inl rfl
  | ok value => exact .inr ⟨value, rfl, failed⟩

theorem bind_eq_ok {result : Except ε α} {next : α → Except ε β} {value : β}
    (succeeded : (result >>= next) = .ok value) :
    ∃ inner, result = .ok inner ∧ next inner = .ok value := by
  cases result with
  | error error => cases succeeded
  | ok inner => exact ⟨inner, rfl, succeeded⟩

theorem mapError_eq_error {result : Except ε α} {change : ε → ε'} {error : ε'}
    (failed : result.mapError change = .error error) :
    ∃ inner, result = .error inner ∧ change inner = error := by
  cases result with
  | error inner =>
      cases failed
      exact ⟨inner, rfl, rfl⟩
  | ok value => cases failed

end Errors

/-- A step from an operator to one of its operands. -/
inductive Branch where
  | operand | left | right
  deriving DecidableEq, Repr

/-- Why an evaluation fails, and the way to the operator that it fails at. -/
structure Fault where
  path : List Branch
  error : EvalError
  deriving DecidableEq

/-- A fault in an operand, seen from the operator. -/
def Fault.below (branch : Branch) (fault : Fault) : Fault :=
  { fault with path := branch :: fault.path }

namespace Expr

/-- Evaluation that keeps the way to a fault. Parentheses are no step on it. -/
def locate : Expr → Except Fault Value
  | .literal value => .ok value
  | .grouping inner => inner.locate
  | .unary operator operand => do
      let operand ← operand.locate.mapError (Fault.below .operand)
      (applyUnary operator operand).mapError (Fault.mk [])
  | .binary operator left right => do
      let right ← right.locate.mapError (Fault.below .right)
      let left ← left.locate.mapError (Fault.below .left)
      (applyBinary operator left right).mapError (Fault.mk [])

/-- The operator at the end of a way from the root of a tree. -/
def operatorAt? : Expr → List Branch → Option Token
  | .grouping inner, path => inner.operatorAt? path
  | .unary operator _, [] => some operator
  | .unary _ operand, .operand :: path => operand.operatorAt? path
  | .binary operator _ _, [] => some operator
  | .binary _ left _, .left :: path => left.operatorAt? path
  | .binary _ _ right, .right :: path => right.operatorAt? path
  | _, _ => none

/-- Evaluation fails exactly where it is found to fail, and for the same reason. -/
theorem eval_eq_locate (expr : Expr) : expr.eval = expr.locate.mapError Fault.error := by
  induction expr with
  | literal value => rfl
  | grouping inner ih => exact ih
  | unary operator operand ih =>
      simp only [eval, locate, ih, mapError_bind, mapError_mapError]
      exact congrArg _ (funext fun operand => (mapError_id _).symm)
  | binary operator left right leftIH rightIH =>
      simp only [eval, locate, leftIH, rightIH, mapError_bind, mapError_mapError]
      apply congrArg
      funext right
      apply congrArg
      funext left
      exact (mapError_id _).symm

/-! ## Operators at their places -/

/-- Every operator of a tree is one at its place. -/
def WellPlaced : Expr → Prop
  | .literal _ => True
  | .grouping inner => inner.WellPlaced
  | .unary operator operand =>
      (operator.kind = .bang ∨ operator.kind = .minus) ∧ operand.WellPlaced
  | .binary operator left right =>
      (∃ level : Level, operator.kind ∈ level.operators) ∧
        left.WellPlaced ∧ right.WellPlaced

theorem Stratified.wellPlaced {level : Level} {expr : Expr}
    (stratified : expr.Stratified level) : expr.WellPlaced := by
  induction stratified with
  | literal => trivial
  | grouping _ ih => exact ih
  | unary sign _ _ ih => exact ⟨sign, ih⟩
  | binary member _ _ _ leftIH rightIH => exact ⟨⟨_, member⟩, leftIH, rightIH⟩

theorem applyUnary_error {operator : Token} {operand : Value} {error : EvalError}
    (sign : operator.kind = .bang ∨ operator.kind = .minus)
    (failed : applyUnary operator operand = .error error) :
    ∃ type, error = .runtime ⟨type, operator⟩ := by
  unfold applyUnary at failed
  rcases sign with kind | kind <;> rw [kind] at failed
  · cases failed
  · cases operand <;> cases failed <;> exact ⟨_, rfl⟩

theorem arithmetic_error {operator : Token} {compute : Float → Float → Value}
    {left right : Value} {error : EvalError}
    (failed : arithmetic operator compute left right = .error error) :
    ∃ type, error = .runtime ⟨type, operator⟩ := by
  unfold arithmetic at failed
  split at failed <;> cases failed
  exact ⟨_, rfl⟩

theorem add_error {operator : Token} {left right : Value} {error : EvalError}
    (failed : add operator left right = .error error) :
    ∃ type, error = .runtime ⟨type, operator⟩ := by
  unfold add at failed
  split at failed <;> cases failed
  exact ⟨_, rfl⟩

theorem applyBinary_error {operator : Token} {left right : Value} {error : EvalError}
    (known : ∃ level : Level, operator.kind ∈ level.operators)
    (failed : applyBinary operator left right = .error error) :
    ∃ type, error = .runtime ⟨type, operator⟩ := by
  obtain ⟨level, member⟩ := known
  unfold applyBinary at failed
  split at failed
  case h_1 | h_2 => cases failed
  case h_3 => exact add_error failed
  case h_11 => cases level <;> simp_all [Level.operators]
  all_goals exact arithmetic_error failed

/-! ## The operator that fails -/

/-- A fault in a tree: the operator at the end of a way from the root cannot be applied to
some values. -/
inductive FaultAt : Expr → List Branch → Token → EvalError → Prop where
  | grouping {inner : Expr} {path : List Branch} {operator : Token} {error : EvalError} :
      FaultAt inner path operator error → FaultAt (.grouping inner) path operator error
  | sign {operator : Token} {operand : Expr} {value : Value} {error : EvalError} :
      applyUnary operator value = .error error → FaultAt (.unary operator operand) [] operator error
  | operand {sign operator : Token} {operand : Expr} {path : List Branch} {error : EvalError} :
      FaultAt operand path operator error →
      FaultAt (.unary sign operand) (.operand :: path) operator error
  | operator {operator : Token} {left right : Expr} {leftValue rightValue : Value}
      {error : EvalError} :
      applyBinary operator leftValue rightValue = .error error →
      FaultAt (.binary operator left right) [] operator error
  | left {root operator : Token} {left right : Expr} {path : List Branch} {error : EvalError} :
      FaultAt left path operator error →
      FaultAt (.binary root left right) (.left :: path) operator error
  | right {root operator : Token} {left right : Expr} {path : List Branch} {error : EvalError} :
      FaultAt right path operator error →
      FaultAt (.binary root left right) (.right :: path) operator error

/-- Evaluation that fails does so at an operator of the tree. -/
theorem faultAt_of_locate {expr : Expr} {fault : Fault} (failed : expr.locate = .error fault) :
    ∃ operator, expr.FaultAt fault.path operator fault.error := by
  induction expr generalizing fault with
  | literal value => cases failed
  | grouping inner ih =>
      obtain ⟨operator, fails⟩ := ih failed
      exact ⟨operator, .grouping fails⟩
  | unary operator operand ih =>
      rcases bind_eq_error failed with inOperand | ⟨value, _, atOperator⟩
      · obtain ⟨inner, located, rfl⟩ := mapError_eq_error inOperand
        obtain ⟨operator, fails⟩ := ih located
        exact ⟨operator, .operand fails⟩
      · obtain ⟨error, applied, rfl⟩ := mapError_eq_error atOperator
        exact ⟨operator, .sign applied⟩
  | binary operator left right leftIH rightIH =>
      rcases bind_eq_error failed with inRight | ⟨rightValue, _, failed⟩
      · obtain ⟨inner, located, rfl⟩ := mapError_eq_error inRight
        obtain ⟨operator, fails⟩ := rightIH located
        exact ⟨operator, .right fails⟩
      · rcases bind_eq_error failed with inLeft | ⟨leftValue, _, atOperator⟩
        · obtain ⟨inner, located, rfl⟩ := mapError_eq_error inLeft
          obtain ⟨operator, fails⟩ := leftIH located
          exact ⟨operator, .left fails⟩
        · obtain ⟨error, applied, rfl⟩ := mapError_eq_error atOperator
          exact ⟨operator, .operator applied⟩

section FaultAt

variable {expr : Expr} {path : List Branch} {operator : Token} {error : EvalError}

theorem FaultAt.operatorAt? (fails : expr.FaultAt path operator error) :
    expr.operatorAt? path = some operator := by
  induction fails with
  | sign | operator => rfl
  | grouping _ ih | operand _ ih | left _ ih | right _ ih => exact ih

/-- If all operators are at their places, only the kinds of operands are at fault. -/
theorem FaultAt.runtime (fails : expr.FaultAt path operator error) (placed : expr.WellPlaced) :
    ∃ type, error = .runtime ⟨type, operator⟩ := by
  induction fails with
  | grouping _ ih => exact ih placed
  | sign failed => exact applyUnary_error placed.1 failed
  | operand _ ih => exact ih placed.2
  | operator failed => exact applyBinary_error placed.1 failed
  | left _ ih => exact ih placed.2.1
  | right _ ih => exact ih placed.2.2

end FaultAt

/-- If all operators are at their places, evaluation fails only for the kinds of
operands, and the operator that is blamed is the one at the end of the way. -/
theorem WellPlaced.locate_error {expr : Expr} {fault : Fault} (placed : expr.WellPlaced)
    (failed : expr.locate = .error fault) :
    ∃ error : RuntimeError, fault.error = .runtime error ∧
      expr.operatorAt? fault.path = some error.operator := by
  obtain ⟨operator, fails⟩ := faultAt_of_locate failed
  obtain ⟨type, runtime⟩ := fails.runtime placed
  exact ⟨⟨type, operator⟩, runtime, fails.operatorAt?⟩

/-! ## Trees without parentheses and lines -/

/-- A tree without its parentheses. -/
def ungrouped : Expr → Expr
  | .literal value => .literal value
  | .grouping inner => inner.ungrouped
  | .unary operator operand => .unary operator operand.ungrouped
  | .binary operator left right => .binary operator left.ungrouped right.ungrouped

/-- A tree whose operators are put on no line. -/
def unlined : Expr → Expr
  | .literal value => .literal value
  | .grouping inner => .grouping inner.unlined
  | .unary operator operand => .unary operator.unlined operand.unlined
  | .binary operator left right => .binary operator.unlined left.unlined right.unlined

@[simp] theorem locate_ungrouped (expr : Expr) : expr.ungrouped.locate = expr.locate := by
  induction expr with
  | literal value => rfl
  | grouping inner ih => exact ih
  | unary operator operand ih => simp only [ungrouped, locate, ih]
  | binary operator left right leftIH rightIH =>
      simp only [ungrouped, locate, leftIH, rightIH]

end Expr

def EvalError.unlined : EvalError → EvalError
  | .runtime error => .runtime { error with operator := error.operator.unlined }
  | .misplaced operator => .misplaced operator

def Fault.unlined (fault : Fault) : Fault := { fault with error := fault.error.unlined }

namespace Expr

theorem applyUnary_unlined (operator : Token) (operand : Value) :
    applyUnary operator.unlined operand =
      (applyUnary operator operand).mapError EvalError.unlined := by
  obtain ⟨kind, lexeme, literal, line⟩ := operator
  cases kind <;> cases operand <;> rfl

theorem applyBinary_unlined (operator : Token) (left right : Value) :
    applyBinary operator.unlined left right =
      (applyBinary operator left right).mapError EvalError.unlined := by
  obtain ⟨kind, lexeme, literal, line⟩ := operator
  cases kind <;> first
    | rfl
    | cases left <;> cases right <;> rfl

theorem locate_unlined (expr : Expr) :
    expr.unlined.locate = expr.locate.mapError Fault.unlined := by
  induction expr with
  | literal value => rfl
  | grouping inner ih => exact ih
  | unary operator operand ih =>
      simp only [unlined, locate, ih, applyUnary_unlined, mapError_bind, mapError_mapError]
      rfl
  | binary operator left right leftIH rightIH =>
      simp only [unlined, locate, leftIH, rightIH, applyBinary_unlined, mapError_bind,
        mapError_mapError]
      rfl

/-- Trees that differ in parentheses and lines only are evaluated alike: to the same
value, or with the same fault at the same operator. -/
theorem locate_eq_of_alike {left right : Expr}
    (alike : left.ungrouped.unlined = right.ungrouped.unlined) :
    left.locate.mapError Fault.unlined = right.locate.mapError Fault.unlined := by
  calc
    left.locate.mapError Fault.unlined
      = left.ungrouped.unlined.locate := by rw [locate_unlined, locate_ungrouped]
    _ = right.ungrouped.unlined.locate := by rw [alike]
    _ = right.locate.mapError Fault.unlined := by rw [locate_unlined, locate_ungrouped]

end Expr

end Reckon
