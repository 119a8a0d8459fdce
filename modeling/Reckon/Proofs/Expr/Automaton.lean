import Mathlib.Data.List.TakeWhile
import Reckon.Session

/-!
# The automaton of expressions

Whether tokens form an expression, and where they stop to form one, is decided by
an automaton that knows only whether an operand or an operator comes next and how
many parentheses are open. It is related here to the parser step by step: a place
has all that the automaton needs, and whatever else waits on the parser's stack
has no influence on the outcome.
-/

namespace Reckon

namespace Automaton

/-- What comes next. -/
inductive Mode where
  | operand
  | operator
  deriving DecidableEq, Repr

/-- What comes next, and the number of open parentheses. -/
structure State where
  mode : Mode
  depth : Nat
  deriving DecidableEq, Repr

/-- How a run ends: behind an expression, or at a token that does not fit, with the
message for it. -/
inductive Verdict where
  | accepted
  | stuck (message : String) (token : Token)
  deriving DecidableEq

/-- Go on with one token, or end the run at it. -/
def State.step : State → Token → Except Verdict State
  | ⟨.operand, depth⟩, token =>
      match token.kind with
      | .bang | .minus => .ok ⟨.operand, depth⟩
      | .number | .string | .keyword .trueWord | .keyword .falseWord | .keyword .nilWord =>
          .ok ⟨.operator, depth⟩
      | .leftParen => .ok ⟨.operand, depth + 1⟩
      | _ => .error (.stuck "Expected expression." token)
  | ⟨.operator, depth⟩, token =>
      match token.kind, depth with
      | .equalEqual, _ | .bangEqual, _ | .greater, _ | .greaterEqual, _ | .less, _
      | .lessEqual, _ | .plus, _ | .minus, _ | .star, _ | .slash, _ =>
          .ok ⟨.operand, depth⟩
      | .rightParen, depth + 1 => .ok ⟨.operator, depth⟩
      | _, _ + 1 => .error (.stuck "Expect ')' after expression." token)
      | .eof, 0 => .error .accepted
      | _, 0 => .error (.stuck "Expect end of expression." token)

/-- Run over tokens until a token ends the run. -/
def run : State → List Token → Option Verdict
  | _, [] => none
  | state, token :: rest =>
      match state.step token with
      | .ok next => run next rest
      | .error verdict => some verdict

/-- Tokens with a mark of their end, which is added only if they do not end in one.
It is on the line of the last token, or on the first line if there are none. -/
def closed (tokens : List Token) : List Token :=
  if tokens.getLast?.map (·.kind) = some .eof then tokens
  else tokens ++ [⟨.eof, "", none, (tokens.getLast?.map (·.line)).getD 1⟩]

end Automaton

open Automaton

/-! ## One step -/

/-- What the automaton knows of a place. -/
def Place.state : Place → State
  | .beforeOperand _ _ outers => ⟨.operand, outers.length⟩
  | .behindOperand _ _ outers => ⟨.operator, outers.length⟩

/-- The automaton makes the parser's steps, and is stuck where the parser is. -/
theorem Place.state_step (place : Place) {token : Token} (more : token.kind ≠ .eof) :
    place.state.step token =
      match place.step token with
      | .ok next => .ok next.state
      | .error expectation => .error (.stuck expectation.message token) := by
  obtain ⟨kind, lexeme, literal, line⟩ := token
  cases place with
  | beforeOperand lefts signs outers =>
      cases kind with
      | keyword word => cases word <;> rfl
      | eof => contradiction
      | _ => rfl
  | behindOperand lefts operand outers =>
      cases kind with
      | eof => contradiction
      | _ => cases outers <;> rfl

/-- At the end of the tokens the automaton accepts where an expression ends. -/
theorem Place.state_step_end (place : Place) {stop : Token} (ends : stop.kind = .eof) :
    place.state.step stop =
      match place.finish with
      | .ok _ => .error .accepted
      | .error expectation => .error (.stuck expectation.message stop) := by
  cases place with
  | beforeOperand => simp [state, State.step, ends, finish, Expectation.message]
  | behindOperand lefts operand outers =>
      cases outers <;> simp [state, State.step, ends, finish, Expectation.message]

/-! ## Whole runs -/

def Automaton.verdict : Except SyntaxError Expr → Verdict
  | .ok _ => .accepted
  | .error error => .stuck error.expectation.message error.token

/-- A run from a place on ends as reading from the place on does. -/
theorem Place.run_state (place : Place) {tokens : List Token} {stop : Token}
    (more : ∀ token ∈ tokens, token.kind ≠ .eof) (ends : stop.kind = .eof)
    (after : List Token) :
    run place.state (tokens ++ stop :: after) =
      some (verdict (place.read stop tokens).1) := by
  induction tokens generalizing place with
  | nil =>
      simp only [List.nil_append, run, place.state_step_end ends, Place.read]
      cases place.finish <;> rfl
  | cons token tokens ih =>
      have first := place.state_step (more token (by simp))
      simp only [List.cons_append, run, first, Place.read]
      cases place.step token with
      | error expectation => rfl
      | ok next => exact ih next fun other member => more other (by simp [member])

theorem Automaton.closed_eq (tokens : List Token) :
    ∃ after, closed tokens =
      (Parser.ofTokens tokens).remaining ++ (Parser.ofTokens tokens).stop :: after := by
  -- The parser looks for the first mark and the automaton's tokens for a last one.
  cases found : tokens.find? (·.kind == .eof) with
  | some stop =>
      obtain ⟨ends, before, after, equal, others⟩ := List.find?_eq_some_iff_append.mp found
      have remaining : (Parser.ofTokens tokens).remaining = before := by
        have others : ∀ token ∈ before, (token.kind != .eof) = true := others
        simp only [Parser.ofTokens, equal]
        rw [List.takeWhile_append_of_pos others,
          List.takeWhile_cons_of_neg (by simpa using ends), List.append_nil]
      have stopped : (Parser.ofTokens tokens).stop = stop := by
        simp only [Parser.ofTokens, found]
      rw [remaining, stopped, closed, equal]
      split
      next => exact ⟨after, rfl⟩
      next => exact ⟨after ++ [_], List.append_assoc _ _ _⟩
  | none =>
      have others : ∀ token ∈ tokens, token.kind ≠ .eof := by simpa using found
      have remaining : (Parser.ofTokens tokens).remaining = tokens :=
        List.takeWhile_eq_self_iff.mpr (by simpa using others)
      have unended : tokens.getLast?.map (·.kind) ≠ some .eof := by
        intro last
        obtain ⟨token, isLast, ends⟩ := Option.map_eq_some_iff.mp last
        exact others token (List.mem_of_getLast? isLast) ends
      refine ⟨[], ?_⟩
      rw [closed, if_neg unended, remaining]
      simp [Parser.ofTokens, found, Token.endAt]

theorem Parser.ofTokens_more (tokens : List Token) :
    ∀ token ∈ (Parser.ofTokens tokens).remaining, token.kind ≠ .eof := by
  intro token member
  simpa using List.mem_takeWhile_imp member

theorem Parser.ofTokens_ends (tokens : List Token) :
    (Parser.ofTokens tokens).stop.kind = .eof := by
  simp only [Parser.ofTokens]
  split
  next stop found => simpa using List.find?_some found
  next => rfl

/-- The outcome of parsing tokens is that of the automaton on the tokens with a mark of
their end. Where it accepts them an expression is returned and nothing is reported;
otherwise the token that it is stuck at is reported, and nothing else. -/
theorem Session.parseTokens_eq_run (log : Log) (tokens : List Token) :
    match Automaton.run ⟨.operand, 0⟩ (closed tokens) with
    | some .accepted => ∃ expr, parseTokens log tokens = (some expr, log)
    | some (.stuck message token) =>
        parseTokens log tokens =
          (none,
            { log with
              diagnostics := log.diagnostics ++
                [{ stage := .syntactic
                   line := token.line
                   location := if token.kind = .eof then .atEnd else .atLexeme token.lexeme
                   message }]
              hasError := true })
    | none => False := by
  have more := Parser.ofTokens_more tokens
  have ends := Parser.ofTokens_ends tokens
  obtain ⟨after, equal⟩ := closed_eq tokens
  have ran := (Place.beforeOperand [] [] []).run_state more ends after
  rw [← equal] at ran
  change Automaton.run ⟨.operand, 0⟩ (closed tokens) = _ at ran
  rw [ran, parseTokens, Parser.parse]
  cases read : (Place.read (Parser.ofTokens tokens).stop (.beforeOperand [] [] [])
      (Parser.ofTokens tokens).remaining).1 with
  | ok expr => simp [verdict]
  | error error =>
      obtain ⟨expectation, token⟩ := error
      have located : token.location =
          if token.kind = .eof then .atEnd else .atLexeme token.lexeme := by
        unfold Token.location
        split <;> simp_all
      simp [verdict, Log.report, SyntaxError.diagnostic, located]

end Reckon
