import Reckon.Proofs.Session.Panic

/-!
# Endings of a session

A session over an empty log reads the characters of a text, then its tokens, then
evaluates its tree. It ends after the first of these stages that fails, or with a value.
This module follows the four courses that a session can take, and proves that what each
leaves behind tells which of them it was.
-/

namespace Reckon

/-- Diagnostics are put behind those that a log holds, and set the flags of their stages. -/
theorem Log.reportAll_eq (log : Log) (diagnostics : List Diagnostic) :
    log.reportAll diagnostics =
      ⟨log.diagnostics ++ diagnostics,
        log.hasError || diagnostics.any (·.stage != .runtime),
        log.hasRuntimeError || diagnostics.any (·.stage == .runtime)⟩ := by
  induction diagnostics generalizing log with
  | nil => simp [reportAll]
  | cons diagnostic diagnostics ih =>
      have one : log.reportAll (diagnostic :: diagnostics) =
          (log.report diagnostic).reportAll diagnostics := rfl
      rw [one, ih]
      simp only [report, List.append_assoc, List.singleton_append, List.any_cons, Bool.or_assoc]

/-- What is reported of the characters of a text says that the text failed, and not its
evaluation. -/
theorem Scan.reportAll_of_faulty {source : String}
    (faulty : (Scan.ofSource source).diagnostics ≠ []) :
    Log.empty.reportAll (Scan.ofSource source).diagnostics =
      ⟨(Scan.ofSource source).diagnostics, true, false⟩ := by
  obtain ⟨first, rest, split⟩ := List.exists_cons_of_ne_nil faulty
  have firstLexical : first.stage = .lexical :=
    (diagnostics_lexical (by rw [split]; exact List.mem_cons_self)).1
  have error : (Scan.ofSource source).diagnostics.any (·.stage != .runtime) = true := by
    rw [split, List.any_cons, firstLexical]
    rfl
  have noRuntimeError :
      (Scan.ofSource source).diagnostics.any (·.stage == .runtime) = false := by
    rw [List.any_eq_false]
    intro diagnostic member
    rw [(diagnostics_lexical member).1]
    decide
  rw [Log.reportAll_eq, error, noRuntimeError]
  rfl

namespace Session

/-! ## Endings -/

/-- The ways in which a session over an empty log can end: with a value, or with a failure
of one of its stages. -/
inductive Ending where
  | value
  | lexical
  | syntactic
  | runtime
  deriving DecidableEq

/-- The output and the log that a session leaves when it ends in one of the ways. -/
def Ending.Describes : Ending → Option String × Log → Prop
  | .value, (output, log) => output.isSome ∧ log.diagnostics = [] ∧
      log.hasError = false ∧ log.hasRuntimeError = false
  | .lexical, (output, log) => output = none ∧
      log.diagnostics ≠ [] ∧ (∀ diagnostic ∈ log.diagnostics, diagnostic.stage = .lexical) ∧
      log.hasError = true ∧ log.hasRuntimeError = false
  | .syntactic, (output, log) => output = none ∧
      (∃ diagnostic, log.diagnostics = [diagnostic] ∧ diagnostic.stage = .syntactic) ∧
      log.hasError = true ∧ log.hasRuntimeError = false
  | .runtime, (output, log) => output = none ∧
      (∃ diagnostic, log.diagnostics = [diagnostic] ∧ diagnostic.stage = .runtime) ∧
      log.hasError = false ∧ log.hasRuntimeError = true

/-- The output and the log tell the ending. The flags do, except that the stage of a
diagnostic is needed to tell the two failures of the text apart. -/
theorem Ending.Describes.unique {first second : Ending} {outcome : Option String × Log}
    (describes : first.Describes outcome) (other : second.Describes outcome) :
    first = second := by
  have apart : ¬ (Ending.lexical.Describes outcome ∧ Ending.syntactic.Describes outcome) := by
    rintro ⟨⟨-, -, allLexical, -⟩, -, ⟨diagnostic, single, stage⟩, -⟩
    have lexical := allLexical diagnostic (by rw [single]; exact List.mem_singleton_self _)
    rw [stage] at lexical
    cases lexical
  cases first <;> cases second
  case lexical.syntactic => exact absurd ⟨describes, other⟩ apart
  case syntactic.lexical => exact absurd ⟨other, describes⟩ apart
  all_goals simp_all [Ending.Describes]

/-! ## Courses -/

/-- The courses of a session over an empty log. Each says how the stages fare one after the
other up to the one that decides the ending, what reading alone comes to, and what the
session comes to. -/
inductive Course (source : String) :
    Ending → Option Expr × Log → Option String × Log → Prop where
  | lexical (faulty : (Scan.ofSource source).diagnostics ≠ []) :
      Course source .lexical (none, ⟨(Scan.ofSource source).diagnostics, true, false⟩)
        (none, ⟨(Scan.ofSource source).diagnostics, true, false⟩)
  | syntactic {error : SyntaxError} (silent : (Scan.ofSource source).diagnostics = [])
      (rejects : (Parser.ofTokens (Scan.ofSource source).tokens).parse.1 = .error error) :
      Course source .syntactic (none, ⟨[error.diagnostic], true, false⟩)
        (none, ⟨[error.diagnostic], true, false⟩)
  | runtime {expr : Expr} {error : RuntimeError}
      (silent : (Scan.ofSource source).diagnostics = [])
      (parses : (Parser.ofTokens (Scan.ofSource source).tokens).parse.1 = .ok expr)
      (fails : expr.eval = .error (.runtime error)) :
      Course source .runtime (some expr, .empty) (none, ⟨[error.diagnostic], false, true⟩)
  | value {expr : Expr} {value : Value} (silent : (Scan.ofSource source).diagnostics = [])
      (parses : (Parser.ofTokens (Scan.ofSource source).tokens).parse.1 = .ok expr)
      (evaluates : expr.eval = .ok value) :
      Course source .value (some expr, .empty) (some value.toText, .empty)

theorem parse_of_faulty {source : String} (faulty : (Scan.ofSource source).diagnostics ≠ []) :
    parse .empty source = (none, ⟨(Scan.ofSource source).diagnostics, true, false⟩) := by
  simp only [parse, Scan.reportAll_of_faulty faulty]
  rfl

theorem parse_of_silent {source : String} (silent : (Scan.ofSource source).diagnostics = []) :
    parse .empty source = parseTokens .empty (Scan.ofSource source).tokens := by
  simp only [parse, silent]
  rfl

theorem run_course (source : String) :
    ∃ outcome ending, run .empty source = .ok outcome ∧
      Course source ending (parse .empty source) outcome := by
  by_cases silent : (Scan.ofSource source).diagnostics = []
  · have reads := parse_of_silent silent
    cases parses : (Parser.ofTokens (Scan.ofSource source).tokens).parse.1 with
    | error error =>
        rw [parseTokens, parses] at reads
        refine ⟨_, .syntactic, by rw [run, reads], ?_⟩
        rw [reads]
        exact .syntactic silent parses
    | ok expr =>
        rw [parseTokens, parses] at reads
        rcases (parse_wellPlaced reads).eval_cases with ⟨value, equal⟩ | ⟨error, equal⟩
        · refine ⟨(some value.toText, .empty), .value, ?_, ?_⟩
          · rw [run, reads]
            simp only [interpret, equal]
          · rw [reads]
            exact .value silent parses equal
        · refine ⟨(none, ⟨[error.diagnostic], false, true⟩), .runtime, ?_, ?_⟩
          · rw [run, reads]
            simp only [interpret, equal]
            rfl
          · rw [reads]
            exact .runtime silent parses equal
  · have reads := parse_of_faulty silent
    refine ⟨_, .lexical, by rw [run, reads], ?_⟩
    rw [reads]
    exact .lexical silent

namespace Course

variable {source : String} {ending : Ending} {read : Option Expr × Log}
  {outcome : Option String × Log}

theorem describes (course : Course source ending read outcome) : ending.Describes outcome := by
  cases course with
  | lexical faulty =>
      exact ⟨rfl, faulty, fun _ member => (Scan.diagnostics_lexical member).1, rfl, rfl⟩
  | syntactic => exact ⟨rfl, ⟨_, rfl, rfl⟩, rfl, rfl⟩
  | runtime => exact ⟨rfl, ⟨_, rfl, rfl⟩, rfl, rfl⟩
  | value => exact ⟨rfl, rfl, rfl, rfl⟩

end Course

/-! ## Stages that do not run -/

/-- A session with any parser and any evaluator in place of its own. -/
def staged (parser : Log → List Token → Option Expr × Log)
    (evaluator : Log → Expr → Except MisplacedOperator (Option String × Log))
    (log : Log) (source : String) : Except MisplacedOperator (Option String × Log) :=
  let scan := Scan.ofSource source
  let log := log.reportAll scan.diagnostics
  if log.hasError then .ok (none, log) else
    match parser log scan.tokens with
    | (none, log) => .ok (none, log)
    | (some expr, log) => evaluator log expr

theorem run_eq_staged (log : Log) (source : String) :
    run log source = staged parseTokens interpret log source := by
  simp only [run, parse, staged]
  cases (log.reportAll (Scan.ofSource source).diagnostics).hasError <;> rfl

end Session

end Reckon
