import Reckon.Proofs.Expr.Typing

/-!
# Expressions in postfix form

A machine with a stack of values performs the instructions of an expression: those of
the right operand, those of the left one, and then the operator. The rules of the
operators are stated here for the machine alone. This module proves that a run of the
machine comes to what the expression evaluates to, and that the operator at fault is the
first in the order of the instructions that cannot be applied.
-/

namespace Reckon

/-! ## The machine -/

/-- An instruction pushes a value, or applies an operator to the values on top of the
stack. The left operand of a binary operator lies above the right one. -/
inductive Instruction where
  | push (value : Value)
  | unary (operator : Token)
  | binary (operator : Token)
  deriving DecidableEq

/-- Why the machine stops before all instructions are performed. -/
inductive Stop where
  | fault (error : TypeError) (operator : Token)
  | panic (message : String)
  | underflow
  deriving DecidableEq

/-- What the operators that insist on numbers make of two of them. -/
def Kind.numeric? : Kind → Option (Float → Float → Value)
  | .minus => some fun left right => .number (left - right)
  | .slash => some fun left right => .number (left / right)
  | .star => some fun left right => .number (left * right)
  | .greater => some fun left right => .boolean (left > right)
  | .greaterEqual => some fun left right => .boolean (left ≥ right)
  | .less => some fun left right => .boolean (left < right)
  | .lessEqual => some fun left right => .boolean (left ≤ right)
  | _ => none

namespace Machine

/-- Apply a unary operator. Only a minus sign insists on a number. -/
def unary (operator : Token) (operand : Value) : Except Stop Value :=
  match operator.kind, operand with
  | .bang, operand => .ok (.boolean (!operand.isTruthy))
  | .minus, .number double => .ok (.number (-double))
  | .minus, _ => .error (.fault .operandMustBeNumber operator)
  | kind, _ =>
      .error (.panic
        ("internal error: entered unreachable code: Invalid unary operator: " ++ kind.name))

/-- Apply a binary operator. Comparing for equality insists on nothing, addition on two
numbers or two texts, and every other operator on two numbers. -/
def binary (operator : Token) (left right : Value) : Except Stop Value :=
  match operator.kind, left, right with
  | .equalEqual, left, right => .ok (.boolean (left == right))
  | .bangEqual, left, right => .ok (.boolean (!(left == right)))
  | .plus, .number left, .number right => .ok (.number (left + right))
  | .plus, .text left, .text right => .ok (.text (left ++ right))
  | .plus, _, _ => .error (.fault .operandsMustBeNumbersOrStrings operator)
  | kind, left, right =>
      match kind.numeric?, left, right with
      | some compute, .number left, .number right => .ok (compute left right)
      | some _, _, _ => .error (.fault .operandsMustBeNumbers operator)
      | none, _, _ =>
          .error (.panic
            ("internal error: entered unreachable code: Invalid binary operator: " ++
              kind.name))

/-- Perform one instruction on a stack. -/
def step : Instruction → List Value → Except Stop (List Value)
  | .push value, stack => .ok (value :: stack)
  | .unary operator, operand :: stack => (unary operator operand).map (· :: stack)
  | .binary operator, left :: right :: stack => (binary operator left right).map (· :: stack)
  | .unary _, [] | .binary _, [] | .binary _, [_] => .error .underflow

/-- Perform instructions up to the first that fails. -/
def run : List Instruction → List Value → Except Stop (List Value)
  | [], stack => .ok stack
  | instruction :: rest, stack => step instruction stack >>= run rest

@[simp] theorem run_append (first second : List Instruction) (stack : List Value) :
    run (first ++ second) stack = run first stack >>= run second := by
  induction first generalizing stack with
  | nil => rfl
  | cons instruction first ih =>
      rw [List.cons_append, run, run]
      cases step instruction stack with
      | error stop => rfl
      | ok next => exact ih next

@[simp] theorem run_singleton (instruction : Instruction) (stack : List Value) :
    run [instruction] stack = step instruction stack := by
  rw [run]
  cases step instruction stack <;> rfl

end Machine

namespace Expr

/-- The instructions of an expression. Parentheses have none. -/
def compile : Expr → List Instruction
  | .literal value => [.push value]
  | .grouping inner => inner.compile
  | .unary operator operand => operand.compile ++ [.unary operator]
  | .binary operator left right => right.compile ++ left.compile ++ [.binary operator]

end Expr

/-- How the machine stops where evaluation fails. -/
def EvalError.stop : EvalError → Stop
  | .runtime error => .fault error.error error.operator
  | .misplaced operator => .panic operator.message

/-! ## Evaluation as a run -/

namespace Machine

theorem unary_eq (operator : Token) (operand : Value) :
    unary operator operand = (Expr.applyUnary operator operand).mapError EvalError.stop := by
  obtain ⟨kind, lexeme, literal, line⟩ := operator
  cases kind <;> cases operand <;> rfl

theorem binary_eq (operator : Token) (left right : Value) :
    binary operator left right =
      (Expr.applyBinary operator left right).mapError EvalError.stop := by
  obtain ⟨kind, lexeme, literal, line⟩ := operator
  cases kind <;> first
    | rfl
    | cases left <;> cases right <;> rfl

/-- The instructions of an expression leave its value on the stack, on top of what was
there before. -/
theorem run_compile (expr : Expr) (stack : List Value) :
    run expr.compile stack = (expr.eval.mapError EvalError.stop).map (· :: stack) := by
  induction expr generalizing stack with
  | literal value => rfl
  | grouping inner ih => exact ih stack
  | unary operator operand ih =>
      rw [Expr.compile, run_append, ih, Expr.eval]
      cases operand.eval with
      | error error => rfl
      | ok value =>
          change run [.unary operator] (value :: stack) = _
          rw [run_singleton, step, unary_eq]
          rfl
  | binary operator left right leftIH rightIH =>
      rw [Expr.compile, run_append, run_append, rightIH, Expr.eval]
      cases right.eval with
      | error error => rfl
      | ok rightValue =>
          change run left.compile (rightValue :: stack) >>= run [.binary operator] = _
          rw [leftIH]
          cases left.eval with
          | error error => rfl
          | ok leftValue =>
              change run [.binary operator] (leftValue :: rightValue :: stack) = _
              rw [run_singleton, step, binary_eq]
              rfl

end Machine

namespace Expr

/-! ## The first node at fault -/

/-- The nodes of a tree in the order of their instructions. -/
def nodes : Expr → List Expr
  | .literal value => [.literal value]
  | .grouping inner => inner.nodes
  | .unary operator operand => operand.nodes ++ [.unary operator operand]
  | .binary operator left right => right.nodes ++ left.nodes ++ [.binary operator left right]

def instruction : Expr → Instruction
  | .literal value => .push value
  | .grouping inner => inner.instruction
  | .unary operator _ => .unary operator
  | .binary operator _ _ => .binary operator

/-- The operands of a node, the right one first. -/
def operands : Expr → List Expr
  | .literal _ => []
  | .grouping inner => [inner]
  | .unary _ operand => [operand]
  | .binary _ left right => [right, left]

theorem compile_eq_nodes (expr : Expr) : expr.compile = expr.nodes.map instruction := by
  induction expr with
  | literal value => rfl
  | grouping inner ih => exact ih
  | unary operator operand ih => simp only [compile, nodes, List.map_append, ih]; rfl
  | binary operator left right leftIH rightIH =>
      simp only [compile, nodes, List.map_append, leftIH, rightIH]
      rfl

/-- The instructions of an expression that has a value are performed. -/
theorem run_nodes {expr : Expr} {value : Value} (evaluated : expr.eval = .ok value)
    (stack : List Value) :
    Machine.run (expr.nodes.map instruction) stack = .ok (value :: stack) := by
  rw [← compile_eq_nodes, Machine.run_compile, evaluated]
  rfl

/-- Nodes that have values, and whose instructions are performed whatever is on the
stack. -/
structure Performed (nodes : List Expr) : Prop where
  valued : ∀ node ∈ nodes, ∃ value, node.eval = .ok value
  ran : ∀ stack, ∃ later, Machine.run (nodes.map instruction) stack = .ok later

theorem Performed.nil : Performed [] := ⟨List.forall_mem_nil _, fun stack => ⟨stack, rfl⟩⟩

theorem Performed.append {front back : List Expr} (first : Performed front)
    (second : Performed back) : Performed (front ++ back) := by
  constructor
  · exact List.forall_mem_append.mpr ⟨first.valued, second.valued⟩
  · intro stack
    obtain ⟨middle, ran⟩ := first.ran stack
    obtain ⟨later, ranOn⟩ := second.ran middle
    refine ⟨later, ?_⟩
    rw [List.map_append, Machine.run_append, ran]
    exact ranOn

theorem performed_of_eval {expr : Expr} {value : Value} (evaluated : expr.eval = .ok value) :
    Performed expr.nodes := by
  refine ⟨?_, fun stack => ⟨_, run_nodes evaluated stack⟩⟩
  induction expr generalizing value with
  | literal literal =>
      rw [nodes, List.forall_mem_singleton]
      exact ⟨value, evaluated⟩
  | grouping inner ih => exact ih evaluated
  | unary operator operand ih =>
      obtain ⟨_, operandValue, _⟩ := bind_eq_ok evaluated
      rw [nodes, List.forall_mem_append, List.forall_mem_singleton]
      exact ⟨ih operandValue, value, evaluated⟩
  | binary operator left right leftIH rightIH =>
      obtain ⟨_, rightValue, others⟩ := bind_eq_ok evaluated
      obtain ⟨_, leftValue, _⟩ := bind_eq_ok others
      rw [nodes, List.forall_mem_append, List.forall_mem_append, List.forall_mem_singleton]
      exact ⟨⟨rightIH rightValue, leftIH leftValue⟩, value, evaluated⟩

/-- Evaluation stops at a node that is behind some nodes of the tree and before others. The
nodes before it are performed, and its own operands have values. Its operator is at fault,
and the machine refuses its instruction. -/
structure StopsAt (expr : Expr) (before : List Expr) (node : Expr) (after : List Expr)
    (operator : Token) (error : EvalError) : Prop where
  order : expr.nodes = before ++ node :: after
  performed : Performed before
  operands : ∀ operand ∈ node.operands, ∃ value, operand.eval = .ok value
  failed : node.eval = .error error
  found : node.operatorAt? [] = some operator
  fault : operator.AtFault error
  refused : ∀ stack later, Machine.run (before.map instruction) stack = .ok later →
    Machine.step node.instruction later = .error error.stop

variable {whole expr node : Expr} {before after front back : List Expr} {operator : Token}
  {error : EvalError}

/-- Where evaluation of a part stops, evaluation of the whole does, if all nodes before the
part are performed. -/
theorem StopsAt.within (part : expr.StopsAt before node after operator error)
    (performed : Performed front) (order : whole.nodes = front ++ expr.nodes ++ back) :
    whole.StopsAt (front ++ before) node (after ++ back) operator error where
  order := by rw [order, part.order]; simp
  performed := performed.append part.performed
  operands := part.operands
  failed := part.failed
  found := part.found
  fault := part.fault
  refused := by
    intro stack later ran
    rw [List.map_append, Machine.run_append] at ran
    obtain ⟨middle, _, ranOn⟩ := bind_eq_ok ran
    exact part.refused middle later ranOn

/-- Evaluation that fails stops at a node of the tree. -/
theorem stopsAt_of_eval (failed : expr.eval = .error error) :
    ∃ before node after operator, expr.StopsAt before node after operator error := by
  induction expr with
  | literal value => cases failed
  | grouping inner ih =>
      obtain ⟨before, node, after, blamed, part⟩ := ih failed
      have order : (grouping inner).nodes = [] ++ inner.nodes ++ [] := by simp [nodes]
      exact ⟨_, node, _, blamed, part.within .nil order⟩
  | unary operator operand ih =>
      rcases bind_eq_error failed with inOperand | ⟨value, evaluated, refused⟩
      · obtain ⟨before, node, after, blamed, part⟩ := ih inOperand
        exact ⟨_, node, _, blamed, part.within .nil rfl⟩
      · refine ⟨operand.nodes, _, [], operator, rfl, performed_of_eval evaluated, ?_, failed,
          rfl, applyUnary_atFault refused, ?_⟩
        · exact List.forall_mem_singleton.mpr ⟨value, evaluated⟩
        · intro stack later ran
          rw [run_nodes evaluated] at ran
          cases ran
          rw [instruction, Machine.step, Machine.unary_eq, refused]
          rfl
  | binary operator left right leftIH rightIH =>
      rcases bind_eq_error failed with inRight | ⟨rightValue, rightEvaluated, failedLeft⟩
      · obtain ⟨before, node, after, blamed, part⟩ := rightIH inRight
        have order : (binary operator left right).nodes =
            [] ++ right.nodes ++ (left.nodes ++ [binary operator left right]) :=
          List.append_assoc _ _ _
        exact ⟨_, node, _, blamed, part.within .nil order⟩
      · have rightPerformed := performed_of_eval rightEvaluated
        rcases bind_eq_error failedLeft with inLeft | ⟨leftValue, leftEvaluated, refused⟩
        · obtain ⟨before, node, after, blamed, part⟩ := leftIH inLeft
          exact ⟨_, node, _, blamed, part.within rightPerformed rfl⟩
        · refine ⟨right.nodes ++ left.nodes, _, [], operator, rfl,
            rightPerformed.append (performed_of_eval leftEvaluated), ?_, failed, rfl,
            applyBinary_atFault refused, ?_⟩
          · rw [operands, List.forall_mem_cons, List.forall_mem_singleton]
            exact ⟨⟨rightValue, rightEvaluated⟩, leftValue, leftEvaluated⟩
          · intro stack later ran
            rw [List.map_append, Machine.run_append, run_nodes rightEvaluated] at ran
            change Machine.run _ (rightValue :: stack) = .ok later at ran
            rw [run_nodes leftEvaluated] at ran
            cases ran
            rw [instruction, Machine.step, Machine.binary_eq, refused]
            rfl

/-- Evaluation is a run of the machine over the instructions of the nodes, the right operand
before the left one and both before their operator. It ends with the value alone on the
stack. If it fails, the operator at fault is that of the first node whose operands have
values and which has none itself, so this node is the first in the order of the nodes. -/
theorem eval_eq_run (expr : Expr) :
    expr.compile = expr.nodes.map instruction ∧
      Machine.run expr.compile [] = (expr.eval.mapError EvalError.stop).map ([·]) ∧
      ∀ error, expr.eval = .error error →
        ∃ before node after operator, expr.StopsAt before node after operator error :=
  ⟨compile_eq_nodes expr, Machine.run_compile expr [], fun _ => stopsAt_of_eval⟩

example :
    let operator (kind : Kind) (line : Nat) : Token := ⟨kind, "", none, line⟩
    let left : Expr := .unary (operator .minus 1) (.literal .nil)
    let right : Expr := .binary (operator .star 2) (.literal .nil) (.literal (.text "a"))
    Machine.run (Expr.binary (operator .comma 3) left (.grouping right)).compile [] =
      .error (.fault .operandsMustBeNumbers (operator .star 2)) := by
  rfl

end Expr

end Reckon
