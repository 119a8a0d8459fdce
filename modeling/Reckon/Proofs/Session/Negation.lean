import Mathlib.Algebra.Group.Nat.Even
import Reckon.Proofs.Session.Enclosing

/-!
# Negation

Exclamation marks in front of a text in parentheses negate it as many times. Each mark is a
token of its own, for none of them has an equals sign behind it, and the tokens are nested from
the right. Whether the value counts as true then depends on their number being even or odd, and
a type error of the text is found before the first of them is applied.
-/

namespace Reckon

variable {source : String} {expr : Expr}

/-- Signs in front of an operand are applied from the right. -/
theorem Derives.signs {operator : Token} {tokens : List Token}
    (isSign : operator.kind = .bang ∨ operator.kind = .minus)
    (derives : Derives .unary tokens expr) (count : Nat) :
    Derives .unary (List.replicate count operator ++ tokens)
      (Nat.repeat (Expr.unary operator) count expr) := by
  induction count with
  | zero => exact derives
  | succ count ih =>
      rw [List.replicate_succ, List.cons_append, Nat.repeat]
      exact .sign isSign ih

/-! ## Values -/

theorem Value.toText_boolean (truth : Bool) :
    (Value.boolean truth).toText = if truth then "true" else "false" := by
  cases truth <;> rfl

theorem Value.isTruthy_iff (value : Value) :
    value.isTruthy = true ↔ value ≠ .nil ∧ value ≠ .boolean false := by
  cases value with
  | nil => simp [isTruthy]
  | boolean truth => cases truth <;> simp [isTruthy]
  | number | text => simp [isTruthy]

section Negation

variable {operator : Token} (isBang : operator.kind = .bang)
include isBang

theorem Expr.applyUnary_bang (value : Value) :
    applyUnary operator value = .ok (.boolean (!value.isTruthy)) := by
  simp only [applyUnary, isBang]

/-- A value that is negated an even number of times counts as what it counted as before, and
as the opposite otherwise. -/
theorem Expr.eval_negated {value : Value} (evaluates : expr.eval = .ok value) (count : Nat) :
    (Nat.repeat (Expr.unary operator) (count + 1) expr).eval =
      .ok (.boolean (decide (Even (count + 1) ↔ value.isTruthy))) := by
  induction count with
  | zero =>
      have once : (Expr.unary operator expr).eval = .ok (.boolean (!value.isTruthy)) := by
        rw [eval, evaluates]
        exact applyUnary_bang isBang value
      rw [Nat.repeat, Nat.repeat, once]
      cases value.isTruthy <;> rfl
  | succ count ih =>
      have opposite : (¬ (Even (count + 1) ↔ value.isTruthy)) ↔
          (Even (count + 1 + 1) ↔ value.isTruthy) := by
        rw [Nat.even_add_one (n := count + 1), not_iff]
      rw [Nat.repeat, eval, ih]
      refine (applyUnary_bang isBang _).trans ?_
      rw [Value.isTruthy, ← decide_not, decide_eq_decide.mpr opposite]

end Negation

theorem Expr.eval_repeat_unary {error : EvalError} (fails : expr.eval = .error error)
    (operator : Token) (count : Nat) :
    (Nat.repeat (Expr.unary operator) count expr).eval = .error error := by
  induction count with
  | zero => exact fails
  | succ count ih =>
      rw [Nat.repeat, eval, ih]
      rfl

namespace Session

/-- A text in parentheses with a number of exclamation marks in front. -/
def negated (count : Nat) (source : String) : String :=
  Scan.between (List.replicate count '!' ++ ['(']) [')'] source

def bang : Token := ⟨.bang, "!", none, 1⟩

/-- The tokens of a negated text, and that nothing is reported about them. -/
theorem scan_negated (silent : (Scan.ofSource source).diagnostics = []) (count : Nat) :
    (Scan.ofSource (negated count source)).diagnostics = [] ∧
      ∃ words line, (Scan.ofSource source).tokens = words ++ [Token.endAt line] ∧
        (Scan.ofSource (negated count source)).tokens =
          List.replicate count bang ++ (⟨.leftParen, "(", none, 1⟩ :: words ++
            [⟨.rightParen, ")", none, line + 1⟩]) ++ [Token.endAt (line + 1)] := by
  have opens (rest : List Char) : Piece.Reads (List.replicate count '!' ++ ['('] ++ rest)
      (List.replicate count (.token .bang ['!'] none) ++ [.token .leftParen ['('] none]) rest := by
    rw [List.append_assoc]
    refine (Piece.Reads.replicate (fun further => ?_) rfl count).append (.more rfl .done)
    -- behind a mark there is another one or the parenthesis, and neither is an equals sign
    cases further <;> rfl
  have closes : Piece.Reads [')'] [.token .rightParen [')'] none] [] := .more rfl .done
  constructor
  · apply Scan.silent_between opens closes silent
    simp [Piece.complaint?, or_imp, forall_and]
  · obtain ⟨words, line, tokens, around⟩ := Scan.tokens_between opens closes silent
    refine ⟨words, line, tokens, ?_⟩
    have onOneLine : (List.replicate count '!' ++ ['(']).count '\n' = 0 := by
      rw [List.count_append, Piece.count_replicate_mark (by decide)]
      rfl
    have same : words.map (Token.down 0) = words := List.map_id words
    have opening : Piece.words (List.replicate count (Piece.token .bang ['!'] none) ++
        [.token .leftParen ['('] none]) =
          List.replicate count bang ++ [⟨.leftParen, "(", none, 1⟩] := by
      rw [Piece.words_append, Piece.words_replicate (by decide), Piece.flatMap_text_replicate,
        Piece.count_replicate_mark (by decide)]
      rfl
    have closing : Piece.words [.token .rightParen [')'] none] =
        [⟨.rightParen, ")", none, 1⟩] := rfl
    have below : lineBehind [')'] = 1 := rfl
    rw [negated, around, onOneLine, same, opening, closing, below]
    simp [Token.down, Token.endAt, Nat.add_comm]

/-- Negation by exclamation marks goes by their number. A text that is parsed may be put in
parentheses, with a line feed before the closing one and any number of exclamation marks in
front. It is parsed then to as many negations of the group, and nothing is reported. A type error
of the text remains the only one, at the same operator. Otherwise an even number of marks asks
whether the value counts as true, as it does if it is neither `nil` nor `false`, and an odd number
asks whether it does not. -/
theorem run_negated (parsed : (parse .empty source).1 = some expr) {count : Nat}
    (marked : 1 ≤ count) :
    parse .empty (negated count source) =
        (some (Nat.repeat (Expr.unary bang) count (.grouping expr)), .empty) ∧
      ((∃ error, expr.eval = .error (.runtime error) ∧
          run .empty source = .ok (none, Log.empty.report error.diagnostic) ∧
          run .empty (negated count source) = .ok (none, Log.empty.report error.diagnostic)) ∨
        ∃ value, expr.eval = .ok value ∧ run .empty source = .ok (some value.toText, .empty) ∧
          run .empty (negated count source) =
            .ok (some (if Even count ↔ value ≠ .nil ∧ value ≠ .boolean false then "true"
              else "false"), .empty)) := by
  have silent := silent_of_parse parsed
  obtain ⟨silentAround, words, line, tokens, around⟩ := scan_negated silent count
  have derives := derives_of_parse tokens parsed
  have parsedAlone : parse .empty source = (some expr, .empty) :=
    parse_of_derives silent tokens derives
  have group : Derives .primary (⟨.leftParen, "(", none, 1⟩ :: words ++
      [⟨.rightParen, ")", none, line + 1⟩]) (.grouping expr) := .group rfl rfl derives
  have signs : Derives .unary (List.replicate count bang ++ _) _ :=
    (group.loosen (by decide)).signs (.inl rfl) count
  have parsedAround := parse_of_derives silentAround around (signs.loosen (Nat.zero_le _))
  obtain ⟨outcome, ran, ends⟩ := run_of_parse parsedAlone
  refine ⟨parsedAround, ?_⟩
  rcases ends with ⟨value, evaluates, rfl⟩ | ⟨error, fails, rfl⟩
  · refine .inr ⟨value, evaluates, ran, ?_⟩
    obtain ⟨further, rfl⟩ := Nat.exists_eq_add_of_le' marked
    have inGroup : (Expr.grouping expr).eval = .ok value := evaluates
    have isBang : bang.kind = .bang := rfl
    rw [run, parsedAround]
    simp only [interpret, Expr.eval_negated isBang inGroup, Value.toText_boolean,
      decide_eq_true_eq, value.isTruthy_iff]
  · refine .inl ⟨error, fails, ran, ?_⟩
    have inGroup : (Expr.grouping expr).eval = .error (.runtime error) := fails
    rw [run, parsedAround]
    simp only [interpret, Expr.eval_repeat_unary inGroup]

/-- The empty text counts as true, also with a comment behind it, and a type error stays on its
line. -/
theorem run_negated_text :
    let text := "\"\" // != nil"
    let sum := "1 +\n-\"a\""
    let minus : Token := ⟨.minus, "-", none, 2⟩
    ((parse .empty text).1 = some (.literal (.text "")) ∧ 1 ≤ 3 ∧
      parse .empty (negated 3 text) =
        (some (.unary bang (.unary bang (.unary bang (.grouping (.literal (.text "")))))), .empty) ∧
      run .empty (negated 3 text) = .ok (some "false", .empty)) ∧
    (parse .empty sum).1 = some (.binary ⟨.plus, "+", none, 1⟩ (.literal (.number 1))
        (.unary minus (.literal (.text "a")))) ∧ 1 ≤ 2 ∧
      run .empty (negated 2 sum) =
        .ok (none, Log.empty.report (RuntimeError.mk .operandMustBeNumber minus).diagnostic) := by
  intro text sum minus
  have parsedText : (parse .empty text).1 = some (.literal (.text "")) := by decide +kernel
  have parsedSum : (parse .empty sum).1 = some (.binary ⟨.plus, "+", none, 1⟩
      (.literal (.number 1)) (.unary minus (.literal (.text "a")))) := by decide +kernel
  obtain ⟨negatedText, ends⟩ := run_negated parsedText (by decide : 1 ≤ 3)
  obtain ⟨-, endsSum⟩ := run_negated parsedSum (by decide : 1 ≤ 2)
  refine ⟨⟨parsedText, by decide, negatedText, ?_⟩, parsedSum, by decide, ?_⟩
  · rcases ends with ⟨error, fails, -⟩ | ⟨value, evaluates, -, ran⟩
    · cases fails
    · cases evaluates
      rw [ran, if_neg (by decide)]
  · rcases endsSum with ⟨error, fails, -, ran⟩ | ⟨value, evaluates, -⟩
    · cases fails
      exact ran
    · cases evaluates

end Session

end Reckon
