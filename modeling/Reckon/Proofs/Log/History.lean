import Mathlib.Data.List.DropRight
import Reckon.Log

/-!
# What a log keeps of its calls

A log is reported to, taken from and reset, in any order. Diagnostics stay in it until they
are taken or forgotten; the flags stay until a reset, whatever is taken in between. This
module follows a log through such calls, and accounts for every diagnostic that was ever
reported.
-/

namespace Reckon.Log

/-! ## Calls -/

inductive Call where
  | report (diagnostic : Diagnostic)
  | reportLexical (line : Nat) (message : String)
  | reportSyntax (line : Nat) (location : Location) (message : String)
  | reportRuntime (line : Nat) (message : String)
  | take
  | reset
  deriving DecidableEq

namespace Call

/-- Carry out a call: the diagnostics that it hands over, and the log behind it. -/
def perform (log : Log) : Call → List Diagnostic × Log
  | .report diagnostic => ([], log.report diagnostic)
  | .reportLexical line message => ([], log.reportLexical line message)
  | .reportSyntax line location message => ([], log.reportSyntax line location message)
  | .reportRuntime line message => ([], log.reportRuntime line message)
  | .take => log.take
  | .reset => ([], log.reset)

/-- The diagnostic that a call reports. -/
def reported? : Call → Option Diagnostic
  | .report diagnostic => some diagnostic
  | .reportLexical line message => some ⟨.lexical, line, .unspecified, message⟩
  | .reportSyntax line location message => some ⟨.syntactic, line, location, message⟩
  | .reportRuntime line message => some ⟨.runtime, line, .unspecified, message⟩
  | .take => none
  | .reset => none

/-- Whether nothing is left in a log behind a call. -/
def empties (call : Call) : Bool := call == .take || call == .reset

/-- A call reports a diagnostic, or takes all of them, or resets the log. -/
theorem perform_cases (call : Call) :
    (∃ diagnostic, call.reported? = some diagnostic ∧ call ≠ .take ∧ call ≠ .reset ∧
      ∀ log : Log, call.perform log = ([], log.report diagnostic)) ∨
    call = .take ∨ call = .reset := by
  cases call with
  | take => exact .inr (.inl rfl)
  | reset => exact .inr (.inr rfl)
  | report | reportLexical | reportSyntax | reportRuntime =>
      exact .inl ⟨_, rfl, Call.noConfusion, Call.noConfusion, fun _ => rfl⟩

end Call

/-- The log behind calls, which begin with an empty one. -/
def behind (calls : List Call) : Log :=
  calls.foldl (fun log call => (call.perform log).2) .empty

/-- What was reported behind the last call of some kind. -/
def reportedSince (kind : Call → Bool) (calls : List Call) : List Diagnostic :=
  (calls.rtakeWhile fun call => !kind call).filterMap Call.reported?

@[simp] theorem behind_concat (calls : List Call) (call : Call) :
    behind (calls ++ [call]) = (call.perform (behind calls)).2 := by
  rw [behind, List.foldl_append, List.foldl_cons, List.foldl_nil, behind]

@[simp] theorem reportedSince_concat (kind : Call → Bool) (calls : List Call) (call : Call) :
    reportedSince kind (calls ++ [call]) =
      if kind call then [] else reportedSince kind calls ++ call.reported?.toList := by
  rw [reportedSince, reportedSince, List.rtakeWhile_concat]
  cases kind call with
  | true => rfl
  | false =>
      simp only [Bool.not_false, if_true, List.filterMap_append, Bool.false_eq_true, if_false]
      cases reports : call.reported? <;> simp [reports]

/-! ## The state of a log -/

/-- Texts one after the other, with a line break between any two. -/
inductive Joined : List String → String → Prop where
  | none : Joined [] ""
  | one {text : String} : Joined [text] text
  | more {first second joined : String} {texts : List String} :
      Joined (second :: texts) joined →
      Joined (first :: second :: texts) (first ++ "\n" ++ joined)

theorem joined_intercalate (texts : List String) : Joined texts ("\n".intercalate texts) := by
  induction texts with
  | nil => exact .none
  | cons first texts ih =>
      cases texts with
      | nil =>
          rw [String.intercalate_singleton]
          exact .one
      | cons second texts =>
          rw [String.intercalate_cons_cons]
          exact .more ih

/-- A log that keeps what it should of the calls behind it. It holds what was reported since
it was last emptied, in this order. Its flags tell of all that was reported since the last
reset. -/
structure Keeps (log : Log) (calls : List Call) : Prop where
  diagnostics : log.diagnostics = reportedSince Call.empties calls
  hasError_iff : log.hasError = true ↔
    ∃ diagnostic ∈ reportedSince (· == .reset) calls,
      diagnostic.stage = .lexical ∨ diagnostic.stage = .syntactic
  hasRuntimeError_iff : log.hasRuntimeError = true ↔
    ∃ diagnostic ∈ reportedSince (· == .reset) calls, diagnostic.stage = .runtime
  written : Joined (log.diagnostics.map Diagnostic.toText) log.toText

theorem keeps_empty : Keeps .empty [] := by
  constructor
  case diagnostics => rfl
  case hasError_iff => simp [empty, reportedSince]
  case hasRuntimeError_iff => simp [empty, reportedSince]
  case written => exact joined_intercalate []

variable {log : Log} {calls : List Call} {diagnostic : Diagnostic}

/-- What is reported is put behind the diagnostics, and sets the flag of its stage. -/
theorem Keeps.report (keeps : Keeps log calls) {call : Call} (noTake : call ≠ .take)
    (noReset : call ≠ .reset) (reports : call.reported? = some diagnostic) :
    Keeps (log.report diagnostic) (calls ++ [call]) := by
  have unemptied : call.empties = false := by simp [Call.empties, noTake, noReset]
  have unreset : (call == .reset) = false := beq_false_of_ne noReset
  constructor
  case diagnostics =>
    simp [unemptied, reports, Log.report, keeps.diagnostics]
  case hasError_iff =>
    have stage : (diagnostic.stage != .runtime) = true ↔
        diagnostic.stage = .lexical ∨ diagnostic.stage = .syntactic := by
      cases diagnostic.stage <;> decide
    rw [Log.report, Bool.or_eq_true, keeps.hasError_iff, stage]
    simp [unreset, reports, or_and_right, exists_or]
  case hasRuntimeError_iff =>
    rw [Log.report, Bool.or_eq_true, keeps.hasRuntimeError_iff, beq_iff_eq]
    simp [unreset, reports, or_and_right, exists_or]
  case written => exact joined_intercalate _

/-- Taking the diagnostics out changes nothing about the flags. -/
theorem Keeps.take (keeps : Keeps log calls) : Keeps log.take.2 (calls ++ [.take]) := by
  have flags : reportedSince (· == .reset) (calls ++ [.take]) =
      reportedSince (· == .reset) calls := by
    simp [Call.reported?]
  constructor
  case diagnostics => simp [Call.empties, Log.take]
  case hasError_iff =>
    rw [flags]
    exact keeps.hasError_iff
  case hasRuntimeError_iff =>
    rw [flags]
    exact keeps.hasRuntimeError_iff
  case written => exact joined_intercalate _

/-- Behind a reset everything begins anew. -/
theorem Keeps.reset (log : Log) (calls : List Call) : Keeps log.reset (calls ++ [.reset]) := by
  have nothing : reportedSince (· == .reset) (calls ++ [.reset]) = [] := by simp
  constructor
  case diagnostics => simp [Call.empties, Log.reset, empty]
  case hasError_iff => simp [nothing, Log.reset, empty]
  case hasRuntimeError_iff => simp [nothing, Log.reset, empty]
  case written => exact joined_intercalate _

theorem Keeps.concat (keeps : Keeps log calls) (call : Call) :
    Keeps (call.perform log).2 (calls ++ [call]) := by
  obtain ⟨diagnostic, reports, noTake, noReset, performs⟩ | rfl | rfl := call.perform_cases
  · rw [performs]
    exact keeps.report noTake noReset reports
  · exact keeps.take
  · exact .reset log calls

theorem keeps_behind (calls : List Call) : Keeps (behind calls) calls := by
  induction calls using List.reverseRecOn with
  | nil => exact keeps_empty
  | append_singleton calls call ih =>
      rw [behind_concat]
      exact ih.concat call

/-! ## The whereabouts of diagnostics -/

/-- What has become of a diagnostic. It was taken or forgotten by a call, which is told by
its place among the calls, or the log still holds it. -/
inductive Fate where
  | taken (place : Nat)
  | forgotten (place : Nat)
  | held
  deriving DecidableEq

/-- What becomes of the diagnostics in a log by the calls from a place on. The first call that
empties the log decides. -/
def Fate.ahead (place : Nat) : List Call → Fate
  | [] => .held
  | call :: calls =>
      match call with
      | .take => .taken place
      | .reset => .forgotten place
      | _ => ahead (place + 1) calls

/-- The diagnostics that calls report, and what becomes of each by the calls behind it. -/
def fates (place : Nat) : List Call → List (Fate × Diagnostic)
  | [] => []
  | call :: calls =>
      call.reported?.toList.map (Fate.ahead (place + 1) calls, ·) ++ fates (place + 1) calls

/-- The diagnostics that leave a log, call by call, and those that it holds in the end. -/
def releases (place : Nat) (log : Log) : List Call → List (Fate × Diagnostic)
  | [] => log.diagnostics.map (.held, ·)
  | call :: calls =>
      let (taken, later) := call.perform log
      let forgotten := if call = .reset then log.diagnostics else []
      taken.map (.taken place, ·) ++ forgotten.map (.forgotten place, ·) ++
        releases (place + 1) later calls

/-- Calls release what a log holds before them, and then what they report themselves. -/
theorem releases_eq (place : Nat) (log : Log) (calls : List Call) :
    releases place log calls =
      log.diagnostics.map (Fate.ahead place calls, ·) ++ fates place calls := by
  induction calls generalizing place log with
  | nil => exact (List.append_nil _).symm
  | cons call calls ih =>
      simp only [releases, ih, fates]
      obtain ⟨diagnostic, reports, noTake, noReset, performs⟩ | rfl | rfl := call.perform_cases
      · -- The diagnostic joins those in the log, and shares their fate from here on.
        have ahead : Fate.ahead place (call :: calls) = Fate.ahead (place + 1) calls := by
          cases call with
          | take => exact absurd rfl noTake
          | reset => exact absurd rfl noReset
          | report | reportLexical | reportSyntax | reportRuntime => rfl
        simp [performs, reports, noReset, ahead, Log.report]
      · simp [Call.perform, Call.reported?, Fate.ahead, Log.take]
      · simp [Call.perform, Call.reported?, Fate.ahead, Log.reset, empty]

theorem map_snd_fates (place : Nat) (calls : List Call) :
    (fates place calls).map Prod.snd = calls.filterMap Call.reported? := by
  induction calls generalizing place with
  | nil => rfl
  | cons call calls ih =>
      rw [fates, List.map_append, ih]
      cases reports : call.reported? <;> simp [reports]

/-- The diagnostic of a call has its fate decided by the calls behind it. -/
theorem getElem?_fates (place : Nat) (front back : List Call) {call : Call}
    (reports : call.reported? = some diagnostic) :
    (fates place (front ++ call :: back))[(front.filterMap Call.reported?).length]? =
      some (Fate.ahead (place + front.length + 1) back, diagnostic) := by
  induction front generalizing place with
  | nil => simp [fates, reports]
  | cons first front ih =>
      have next := ih (place + 1)
      rw [Nat.add_right_comm place 1] at next
      rw [List.cons_append, fates, List.length_cons, ← Nat.add_assoc place]
      cases reportsFirst : first.reported? with
      | none => simpa [reportsFirst] using next
      | some other => simpa [reportsFirst] using next

/-- A log keeps what it should of any calls, and it loses nothing and makes up nothing. What
the calls release one after the other, and what is held in the end, are the diagnostics that
were reported, each of them once. What becomes of one is decided by the first call behind its
report that empties the log. -/
theorem calls_accounted (calls : List Call) :
    Keeps (behind calls) calls ∧
      (releases 0 .empty calls).map Prod.snd = calls.filterMap Call.reported? ∧
      ∀ front call back diagnostic, calls = front ++ call :: back →
        call.reported? = some diagnostic →
          (releases 0 .empty calls)[(front.filterMap Call.reported?).length]? =
            some (Fate.ahead (front.length + 1) back, diagnostic) := by
  have released : releases 0 .empty calls = fates 0 calls := releases_eq 0 .empty calls
  rw [released]
  refine ⟨keeps_behind calls, map_snd_fates 0 calls, ?_⟩
  rintro front call back diagnostic rfl reports
  have found := getElem?_fates 0 front back reports
  rwa [Nat.zero_add] at found

/-- A diagnostic that was taken is not forgotten by the reset behind. -/
example :
    releases 0 .empty [.reportLexical 1 "a", .take, .reportRuntime 2 "b", .reset,
        .reportSyntax 3 .atEnd "c"] =
      [(.taken 1, ⟨.lexical, 1, .unspecified, "a"⟩),
        (.forgotten 3, ⟨.runtime, 2, .unspecified, "b"⟩),
        (.held, ⟨.syntactic, 3, .atEnd, "c"⟩)] := rfl

end Reckon.Log
