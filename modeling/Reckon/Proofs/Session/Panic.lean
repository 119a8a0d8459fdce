import Reckon.Proofs.Expr.Descent
import Reckon.Proofs.Expr.Fault
import Reckon.Proofs.Token.Scanner

/-!
# Sessions without panic

A checked session scans with two cursors, parses by recursive descent and evaluates. Each
of these could end with a panic. This module proves that none does unless comments nest deeper
than can be counted and overflow is a panic, and that a checked session comes to what a session
comes to.
-/

namespace Reckon

/-! ## Operators that are handled -/

namespace Expr

theorem applyUnary_handles_iff (operator : Token) (operand : Value) :
    (operator.kind = .bang ∨ operator.kind = .minus) ↔
      ∀ misplaced, applyUnary operator operand ≠ .error (.misplaced misplaced) := by
  constructor
  · intro sign misplaced failed
    obtain ⟨type, runtime⟩ := applyUnary_error sign failed
    cases runtime
  · intro handled
    obtain ⟨kind, lexeme, literal, line⟩ := operator
    cases kind with
    | bang => exact .inl rfl
    | minus => exact .inr rfl
    | _ => exact absurd rfl (handled _)

theorem applyBinary_handles_iff (operator : Token) (left right : Value) :
    (∃ level : Level, operator.kind ∈ level.operators) ↔
      ∀ misplaced, applyBinary operator left right ≠ .error (.misplaced misplaced) := by
  constructor
  · intro known misplaced failed
    obtain ⟨type, runtime⟩ := applyBinary_error known failed
    cases runtime
  · intro handled
    obtain ⟨kind, lexeme, literal, line⟩ := operator
    cases kind with
    | equalEqual | bangEqual => exact ⟨.equality, by simp [Level.operators]⟩
    | greater | greaterEqual | less | lessEqual => exact ⟨.comparison, by simp [Level.operators]⟩
    | plus | minus => exact ⟨.term, by simp [Level.operators]⟩
    | slash | star => exact ⟨.factor, by simp [Level.operators]⟩
    | _ => exact absurd rfl (handled _)

theorem WellPlaced.eval_cases {expr : Expr} (placed : expr.WellPlaced) :
    (∃ value, expr.eval = .ok value) ∨ ∃ error, expr.eval = .error (.runtime error) := by
  rw [eval_eq_locate]
  cases located : expr.locate with
  | ok value => exact .inl ⟨value, rfl⟩
  | error fault =>
      obtain ⟨error, runtime, -⟩ := placed.locate_error located
      exact .inr ⟨error, congrArg Except.error runtime⟩

end Expr

namespace Session

theorem parseTokens_wellPlaced {log later : Log} {tokens : List Token} {expr : Expr}
    (parsed : parseTokens log tokens = (some expr, later)) : expr.WellPlaced := by
  have found := congrArg Prod.fst parsed
  have derives := (parseTokens_fst_eq_some_iff log tokens expr).mp found
  exact derives.shape.1.wellPlaced

/-! ## Checked sessions -/

/-- Read an expression by a scanner with two cursors and by recursive descent. -/
def checkedParse (overflow : Overflow) (log : Log) (source : String) :
    Checked (Option Expr × Log) := do
  let (tokens, log) ← Scanner.scan overflow log source
  if log.hasError then return (none, log)
  Descent.parseTokens log tokens

/-- Read an expression, evaluate it and write out its value. A misplaced operator is a
panic. -/
def checkedRun (overflow : Overflow) (log : Log) (source : String) :
    Checked (Option String × Log) := do
  match ← checkedParse overflow log source with
  | (none, log) => return (none, log)
  | (some expr, log) =>
      match interpret log expr with
      | .ok outcome => return outcome
      | .error misplaced => throw (.operator misplaced)

theorem interpret_eq_ok (log : Log) {expr : Expr} (placed : expr.WellPlaced) :
    ∃ outcome, interpret log expr = .ok outcome := by
  rw [interpret]
  rcases placed.eval_cases with ⟨value, equal⟩ | ⟨error, equal⟩ <;> rw [equal]
  · exact ⟨_, rfl⟩
  · exact ⟨_, rfl⟩

theorem parse_wellPlaced {log later : Log} {source : String} {expr : Expr}
    (parsed : parse log source = (some expr, later)) : expr.WellPlaced := by
  rw [parse] at parsed
  split at parsed
  next => cases parsed
  next => exact parseTokens_wellPlaced parsed

theorem run_eq_ok (log : Log) (source : String) : ∃ outcome, run log source = .ok outcome := by
  rw [run]
  cases parsed : parse log source with
  | mk found later =>
      cases found with
      | none => exact ⟨(none, later), rfl⟩
      | some expr => exact interpret_eq_ok later (parse_wellPlaced parsed)

section Checked

variable {overflow : Overflow} {log : Log} {source : String}

theorem checkedParse_eq (log : Log) (shallow : (Cursor.start source).Shallow overflow) :
    checkedParse overflow log source = pure (parse log source) := by
  rw [checkedParse, Scanner.scan_eq log shallow, pure_bind, parse]
  simp only
  split
  next => rfl
  next => exact Descent.parseTokens_eq _ _

/-- What the checked scanner gives is parsed and run to an end, whatever it is. -/
theorem checkedRun_of_scan {tokens : List Token} {later : Log}
    (scanned : Scanner.scan overflow log source = pure (tokens, later)) :
    ∃ parsed outcome, checkedParse overflow log source = pure parsed ∧
      checkedRun overflow log source = pure outcome := by
  obtain ⟨⟨found, log'⟩, parsed, placed⟩ : ∃ parsed,
      checkedParse overflow log source = pure parsed ∧ ∀ expr ∈ parsed.1, expr.WellPlaced := by
    rw [checkedParse, scanned, pure_bind]
    simp only
    split
    next => exact ⟨_, rfl, fun _ member => nomatch member⟩
    next =>
      refine ⟨_, Descent.parseTokens_eq _ _, fun expr member => ?_⟩
      exact parseTokens_wellPlaced (Prod.ext member rfl)
  rw [checkedRun, parsed, pure_bind]
  cases found with
  | none => exact ⟨_, _, rfl, rfl⟩
  | some expr =>
      obtain ⟨outcome, equal⟩ := interpret_eq_ok log' (placed expr rfl)
      exact ⟨_, outcome, rfl, by simp only [equal]⟩

theorem checkedRun_eq (log : Log) (shallow : (Cursor.start source).Shallow overflow) :
    ∃ outcome, run log source = .ok outcome ∧
      checkedRun overflow log source = pure outcome := by
  obtain ⟨outcome, ran⟩ := run_eq_ok log source
  refine ⟨outcome, ran, ?_⟩
  rw [checkedRun, checkedParse_eq log shallow, pure_bind]
  rw [run] at ran
  cases parsed : parse log source with
  | mk found later =>
      rw [parsed] at ran
      cases found with
      | none => exact congrArg pure (Except.ok.inj ran)
      | some expr => simp only at ran ⊢; rw [ran]

/-- A checked session with a source text comes to an end. -/
structure Ends (overflow : Overflow) (log : Log) (source : String) : Prop where
  scan : ∃ scanned, Scanner.scan overflow log source = pure scanned
  parse : ∃ parsed, checkedParse overflow log source = pure parsed
  run : ∃ outcome, checkedRun overflow log source = pure outcome

theorem panics_of_deep (log : Log) (deep : ¬(Cursor.start source).Shallow .panics) :
    Scanner.scan .panics log source = throw .overflow ∧
      checkedParse .panics log source = throw .overflow ∧
      checkedRun .panics log source = throw .overflow := by
  have scanned := Scanner.scan_panics log deep
  have parsed : checkedParse .panics log source = throw .overflow := by
    rw [checkedParse, scanned, Checked.throw_bind]
  exact ⟨scanned, parsed, by rw [checkedRun, parsed, Checked.throw_bind]⟩

/-- Nothing but comments that are too deep keeps a session from its end, and that only where
overflow is a panic. -/
theorem ends_iff :
    Ends overflow log source ↔ overflow = .wraps ∨ (Cursor.start source).Shallow .panics := by
  have ends : ∀ {tokens later},
      Scanner.scan overflow log source = pure (tokens, later) → Ends overflow log source := by
    intro tokens later scanned
    obtain ⟨parsed, outcome, isParsed, isRun⟩ := checkedRun_of_scan scanned
    exact ⟨⟨_, scanned⟩, ⟨parsed, isParsed⟩, ⟨outcome, isRun⟩⟩
  constructor
  · intro reached
    by_contra deep
    rw [not_or] at deep
    obtain ⟨notWraps, deep⟩ := deep
    obtain rfl : overflow = .panics := by
      cases overflow with
      | panics => rfl
      | wraps => exact absurd rfl notWraps
    obtain ⟨scanned, isScanned⟩ := reached.scan
    rw [Scanner.scan_panics log deep] at isScanned
    cases isScanned
  · rintro (rfl | shallow)
    · obtain ⟨words, line, later, scanned, -⟩ := Scanner.scan_wraps log source
      exact ends scanned
    · cases overflow with
      | panics => exact ends (Scanner.scan_eq log shallow)
      | wraps =>
          obtain ⟨words, line, later, scanned, -⟩ := Scanner.scan_wraps log source
          exact ends scanned

end Checked

/-- No panic is reachable, but for the count of open comments where overflow is a panic. Every
source text whose comments are not too deep for that, and every text at all where the count
wraps around, is scanned, parsed and run to an end, and every list of tokens parsed, without a
slice or an index out of bounds and without an operator that evaluation does not handle. So
evaluation of what is parsed gives a value or a runtime error. -/
theorem panic_free :
    (∀ overflow log source,
      (Ends overflow log source ↔
        overflow = .wraps ∨ (Cursor.start source).Shallow .panics) ∧
      ((Cursor.start source).Shallow overflow →
        let scan := Scan.ofSource source
        Scanner.scan overflow log source =
            pure (scan.tokens, log.reportAll scan.diagnostics) ∧
          checkedParse overflow log source = pure (parse log source) ∧
          ∃ outcome, run log source = .ok outcome ∧
            checkedRun overflow log source = pure outcome)) ∧
    (∀ (log : Log) (tokens : List Token),
      Descent.parseTokens log tokens = pure (parseTokens log tokens) ∧
        ∀ expr later, parseTokens log tokens = (some expr, later) →
          expr.WellPlaced ∧
            ((∃ value, expr.eval = .ok value) ∨
              ∃ error, expr.eval = .error (.runtime error))) ∧
    (∀ (operator : Token) (left right : Value),
      ((operator.kind = .bang ∨ operator.kind = .minus) ↔
        ∀ misplaced, Expr.applyUnary operator right ≠ .error (.misplaced misplaced)) ∧
      ((∃ level : Level, operator.kind ∈ level.operators) ↔
        ∀ misplaced, Expr.applyBinary operator left right ≠ .error (.misplaced misplaced))) := by
  refine ⟨fun overflow log source => ⟨ends_iff, fun shallow => ?_⟩, fun log tokens => ?_,
    fun operator left right => ?_⟩
  · exact ⟨Scanner.scan_eq log shallow, checkedParse_eq log shallow, checkedRun_eq log shallow⟩
  · refine ⟨Descent.parseTokens_eq log tokens, fun expr later parsed => ?_⟩
    have placed := parseTokens_wellPlaced parsed
    exact ⟨placed, placed.eval_cases⟩
  · exact ⟨Expr.applyUnary_handles_iff operator right,
      Expr.applyBinary_handles_iff operator left right⟩

/-- A sum whose brackets, quotes and comments all stand open at its end is run to the end. -/
theorem panic_free_open :
    let source := "1 +/*/**/*/(\"/*"
    (Cursor.start source).Shallow .panics ∧ Ends .panics .empty source ∧
      ∃ outcome, run .empty source = .ok outcome ∧
        checkedRun .panics .empty source = pure outcome := by
  intro source
  have shallow : (Cursor.start source).Shallow .panics :=
    Cursor.shallow_of_length _ _ (by decide)
  obtain ⟨ends, same⟩ := panic_free.1 .panics .empty source
  exact ⟨shallow, ends.mpr (.inr shallow), (same shallow).2.2⟩

/-- Two billion marks that open comments are a panic where overflow is one. -/
theorem not_panic_free :
    let source := String.ofList ('/' :: '*' :: Piece.openings (2 ^ 31 - 1))
    ∀ log, Scanner.scan .panics log source = throw .overflow ∧
      checkedParse .panics log source = throw .overflow ∧
      checkedRun .panics log source = throw .overflow := by
  intro source log
  have text : source.toList = '/' :: '*' :: Piece.openings (2 ^ 31 - 1) := String.toList_ofList
  clear_value source
  have deep := Piece.le_deepest_openings (2 ^ 31 - 1) []
  rw [List.append_nil] at deep
  exact panics_of_deep log (Cursor.not_shallow text deep)

end Session

end Reckon
