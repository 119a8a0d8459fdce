import Reckon.Proofs.Expr.Infix
import Reckon.Proofs.Session.Ending

/-!
# Printed results

A program prints its value without quotes and with the sign of a number, though the
language has neither such texts nor negative numbers among its literals. This module
proves that `nil`, truth values and finite numbers are programs all the same when they are
printed, and have the values that they were printed for.
-/

namespace Reckon

open Binary64

/-- A value that is a program when it is printed. A text would need quotes, and the words
for an infinity and for NaN mean nothing. -/
inductive Value.Printable : Value → Prop where
  | nil : Printable .nil
  | boolean {truth : Bool} : Printable (.boolean truth)
  | number {double : Float} : double.isFinite → Printable (.number double)

def Token.minusSign : Token := ⟨.minus, "-", none, 0⟩

/-- The tree that a printed value is read to. The sign of a number is an operator. -/
def Value.printed : Value → Expr
  | .number double =>
      if isNegative double then .unary Token.minusSign (.literal (.number (magnitude double)))
      else .literal (.number double)
  | value => .literal value

/-- A printed value is one literal, or a negative number with its sign before the literal. -/
theorem Value.Printable.printed_eq {value : Value} (printable : value.Printable) :
    (value.Writable ∧ value.printed = .literal value) ∨
      ∃ double : Float, double.isFinite ∧ isNegative double = true ∧ value = .number double ∧
        value.printed = .unary Token.minusSign (.literal (.number (magnitude double))) := by
  cases printable with
  | nil => exact .inl ⟨.nil, rfl⟩
  | boolean => exact .inl ⟨.boolean, rfl⟩
  | @number double finite =>
      cases negative : isNegative double with
      | false =>
          refine .inl ⟨.number finite negative, ?_⟩
          rw [printed, negative, if_neg (by decide)]
      | true =>
          refine .inr ⟨double, finite, negative, rfl, ?_⟩
          rw [printed, negative, if_pos rfl]

theorem Value.Printable.writable {value : Value} (printable : value.Printable) :
    value.printed.Writable := by
  rcases printable.printed_eq with ⟨literal, tree⟩ | ⟨double, finite, -, -, tree⟩
  · rw [tree]
    exact .literal literal
  · have unsigned := isNegative_magnitude finite
    have number : (Value.number (magnitude double)).Writable :=
      .number (isFinite_magnitude finite) unsigned
    rw [tree]
    exact .unary (by decide) ⟨rfl, rfl⟩ (.literal number)

theorem Value.Printable.eval_printed {value : Value} (printable : value.Printable) :
    value.printed.eval = .ok value := by
  rcases printable.printed_eq with ⟨-, tree⟩ | ⟨double, finite, negative, rfl, tree⟩
  · rw [tree]
    rfl
  · have negated : (Expr.unary Token.minusSign (.literal (.number (magnitude double)))).eval =
        .ok (.number (-magnitude double)) := rfl
    rw [tree, negated, neg_magnitude finite negative]

theorem Expr.eval_eq_ok_of_alike {left right : Expr} {value : Value}
    (alike : left.ungrouped.unlined = right.ungrouped.unlined)
    (evaluates : right.eval = .ok value) : left.eval = .ok value := by
  have same := locate_eq_of_alike alike
  rw [eval_eq_locate] at evaluates ⊢
  cases located : right.locate with
  | error fault =>
      rw [located] at evaluates
      cases evaluates
  | ok found =>
      rw [located] at evaluates same
      cases evaluates
      cases other : left.locate with
      | error fault =>
          rw [other] at same
          cases same
      | ok value =>
          rw [other] at same
          cases same
          rfl

/-! ## Scanning what is printed -/

theorem Cursor.pieces_of_minus {cursor : Cursor} {rest : List Char}
    (ahead : cursor.rest = '-' :: rest) :
    cursor.pieces.map Prod.snd =
      Token.minusSign.piece :: (cursor.advance 1).pieces.map Prod.snd := by
  rw [pieces_of_cons ahead, List.map_cons]
  rfl

theorem Cursor.pieces_of_token {cursor : Cursor} {token : Token}
    (wellFormed : token.WellFormed) (ahead : cursor.rest = token.lexeme.toList) :
    cursor.pieces.map Prod.snd = [token.piece] := by
  have spaced := Token.spaced_pieces (List.forall_mem_singleton.mpr wellFormed)
  exact spaced.pieces ahead

theorem Value.Printable.lexeme_token {value : Value} (printable : value.Printable) :
    value.token.lexeme = value.toText := by
  cases printable with
  | nil => rfl
  | @boolean truth => cases truth <;> rfl
  | number => rw [token]

/-- The sign of a negative number stands right before it. -/
theorem Value.toText_of_negative {double : Float} (finite : double.isFinite)
    (negative : isNegative double = true) :
    (Value.number double).toText = "-" ++ (Value.number (magnitude double)).toText := by
  have digits : magnitudeText (magnitude double) = magnitudeText double := by
    rw [magnitudeText, magnitudeText, pattern_magnitude finite]
  simp only [toText, numberText, isNaN_of_isFinite finite, negative,
    isNaN_of_isFinite (isFinite_magnitude finite), isNegative_magnitude finite, digits,
    Bool.false_eq_true, if_false, if_true]

/-- A sign before a literal needs no parentheses. -/
theorem Expr.tokens_sign (sign : Token) (value : Value) :
    (Expr.unary sign (.literal value)).tokens = [sign, value.token] := rfl

theorem Value.Printable.pieces {value : Value} (printable : value.Printable) :
    (Cursor.start value.toText).pieces.map Prod.snd =
      value.printed.tokens.map Token.piece := by
  have wellFormed := printable.writable.tokens_wellFormed
  rcases printable.printed_eq with ⟨-, tree⟩ | ⟨double, finite, negative, rfl, tree⟩
  · rw [tree, Expr.tokens, List.forall_mem_singleton] at wellFormed
    rw [tree, Expr.tokens, List.map_singleton]
    apply Cursor.pieces_of_token wellFormed
    rw [printable.lexeme_token, Cursor.start]
  · have digits : (Value.number (magnitude double)).Printable :=
      .number (isFinite_magnitude finite)
    have ahead : (Cursor.start (Value.number double).toText).rest =
        '-' :: (Value.number (magnitude double)).toText.toList := by
      rw [toText_of_negative finite negative, Cursor.start]
      exact String.toList_append
    have behind := (Cursor.start (Value.number double).toText).advance_rest 1
    rw [ahead, List.drop_one, List.tail_cons, ← digits.lexeme_token] at behind
    rw [tree, Expr.tokens_sign, List.forall_mem_cons, List.forall_mem_singleton] at wellFormed
    rw [tree, Expr.tokens_sign, Cursor.pieces_of_minus ahead,
      Cursor.pieces_of_token wellFormed.2 behind, List.map_cons, List.map_singleton]

theorem Scan.ofSource_printed {value : Value} (printable : value.Printable) :
    (ofSource value.toText).tokens.map Token.unlined =
        value.printed.tokens.map Token.unlined ++ [Token.endAt 0] ∧
      (ofSource value.toText).diagnostics = [] := by
  have messages := diagnostics_message value.toText
  rw [tokens_unlined, printable.pieces]
  rw [printable.pieces] at messages
  constructor
  · simp only [List.filterMap_map, Function.comp_def, Token.written?_piece,
      List.filterMap_eq_map']
  · have silent : (value.printed.tokens.map Token.piece).filterMap Piece.complaint? = [] := by
      simp only [List.filterMap_map, Function.comp_def, Token.piece, Piece.complaint?,
        List.filterMap_eq_nil_iff, implies_true]
    rw [silent] at messages
    exact List.map_eq_nil_iff.mp messages

namespace Session

/-- What a text with a value is read to. -/
theorem run_eq_some {source output : String} {log : Log}
    (runs : run .empty source = .ok (some output, log)) :
    ∃ (expr : Expr) (value : Value), parse .empty source = (some expr, .empty) ∧
      expr.eval = .ok value ∧ output = value.toText ∧ log = .empty := by
  obtain ⟨outcome, ending, found, course⟩ := run_course source
  rw [runs] at found
  generalize reads : parse .empty source = read at course
  cases course with
  | lexical | syntactic | runtime => cases found
  | @value expr value silent parses evaluates =>
      cases found
      exact ⟨expr, value, rfl, evaluates, rfl, rfl⟩

/-- Printed results read back. A text that is run to an output has a value, which the output
is printed for. If this value is `nil`, a truth value or a finite number, then the output is
itself read without a complaint, to a tree with the very same value, and is printed again. -/
theorem run_printed {source output : String} {log : Log}
    (runs : run .empty source = .ok (some output, log)) :
    ∃ (expr : Expr) (value : Value), parse .empty source = (some expr, .empty) ∧
      expr.eval = .ok value ∧ output = value.toText ∧
      (value.Printable →
        ∃ again : Expr, parse .empty output = (some again, .empty) ∧
          again.eval = .ok value ∧
          run .empty output = .ok (some output, .empty)) := by
  obtain ⟨expr, value, reads, evaluates, rfl, -⟩ := run_eq_some runs
  refine ⟨expr, value, reads, evaluates, rfl, fun printable => ?_⟩
  obtain ⟨scanned, silent⟩ := Scan.ofSource_printed printable
  obtain ⟨again, readsAgain, alike, runsAgain⟩ :=
    printable.writable.readsBack_of_tokens rfl scanned silent
  rw [printable.eval_printed] at runsAgain
  exact ⟨again, readsAgain, Expr.eval_eq_ok_of_alike alike printable.eval_printed, runsAgain⟩

/-- A difference below zero is read again as a number with a sign before it. -/
theorem run_printed_difference :
    let value : Value := .number (.ofBits 0xBFE0000000000000)
    run .empty "1 - 1.5" = .ok (some "-0.5", .empty) ∧
      (parse .empty "1 - 1.5").1.map Expr.eval = some (.ok value) ∧
      ∃ again : Expr, parse .empty "-0.5" = (some again, .empty) ∧ again.eval = .ok value ∧
        run .empty "-0.5" = .ok (some "-0.5", .empty) := by
  intro value
  have runs : run .empty "1 - 1.5" = .ok (some "-0.5", .empty) := by decide +kernel
  have valued : (parse .empty "1 - 1.5").1.map Expr.eval = some (.ok value) := by decide +kernel
  have printable : value.Printable := .number (by decide)
  obtain ⟨expr, found, reads, evaluates, -, readsBack⟩ := run_printed runs
  refine ⟨runs, valued, ?_⟩
  rw [reads, Option.map_some, evaluates] at valued
  cases valued
  exact readsBack printable

end Session

end Reckon
