import Reckon.Proofs.Session.Ending

/-!
# Logs that are shared

Texts may be run, parsed and scanned one after the other over one log, which is taken from
and reset in between. This module keeps the history of such calls, and proves that one
thing about it matters to a later call: whether the text of a program was at fault since
the log was last reset.
-/

namespace Reckon.Session

/-! ## Calls and their history -/

/-- What can be asked of a log that is shared. -/
inductive Call where
  | run (source : String)
  | parse (source : String)
  | scan (source : String)
  | take
  | reset
  deriving DecidableEq

inductive Reply where
  | output (output : Option String)
  | tree (expr : Option Expr)
  | tokens (tokens : List Token)
  | taken (diagnostics : List Diagnostic)
  | done
  deriving DecidableEq

def Call.perform (log : Log) : Call → Except MisplacedOperator (Reply × Log)
  | .run source => (Session.run log source).map fun outcome => (.output outcome.1, outcome.2)
  | .parse source => .ok (.tree (Session.parse log source).1, (Session.parse log source).2)
  | .scan source =>
      let scan := Scan.ofSource source
      .ok (.tokens scan.tokens, log.reportAll scan.diagnostics)
  | .take => .ok (.taken log.take.1, log.take.2)
  | .reset => .ok (.done, log.reset)

/-- A call that was carried out: what it returned, and the log before and after it. -/
structure Entry where
  call : Call
  before : Log
  reply : Reply
  after : Log
  deriving DecidableEq

def history (log : Log) : List Call → Except MisplacedOperator (List Entry)
  | [] => .ok []
  | call :: calls => do
      let (reply, after) ← call.perform log
      let entries ← history after calls
      return ⟨call, log, reply, after⟩ :: entries

namespace Entry

/-- The diagnostics that a call put behind those of the log. -/
def reported (entry : Entry) : List Diagnostic :=
  entry.after.diagnostics.drop entry.before.diagnostics.length

/-- Whether a call leaves the diagnostics of the log in place. -/
def keeps (entry : Entry) : Bool :=
  entry.call != .take && entry.call != .reset

end Entry

/-- A fault in the text of a program was reported since the last reset. -/
def Failed (earlier : List Entry) : Prop :=
  ∃ entry ∈ earlier.rtakeWhile (·.call != .reset),
    ∃ diagnostic ∈ entry.reported, diagnostic.stage ≠ .runtime

/-- What was reported and neither taken nor forgotten since. -/
def pending (earlier : List Entry) : List Diagnostic :=
  (earlier.rtakeWhile Entry.keeps).flatMap Entry.reported

/-! ## What a call comes to -/

def stagedParse (parser : Log → List Token → Option Expr × Log) (log : Log) (source : String) :
    Option Expr × Log :=
  let scan := Scan.ofSource source
  let log := log.reportAll scan.diagnostics
  if log.hasError then (none, log) else parser log scan.tokens

theorem parse_eq_stagedParse (log : Log) (source : String) :
    parse log source = stagedParse parseTokens log source := rfl

/-- What a call returns and reports, by whether the text of a program has failed before and
by what is pending. A text that is looked at is run or parsed as over an empty log; otherwise
its characters are scanned and nothing else is done. -/
inductive Comes (failed : Prop) (pending : List Diagnostic) :
    Call → Reply → List Diagnostic → Prop where
  | run {source : String} {output : Option String} {fresh : Log} :
      ¬failed → Session.run .empty source = .ok (output, fresh) →
      Comes failed pending (.run source) (.output output) fresh.diagnostics
  | parse {source : String} {expr : Option Expr} {fresh : Log} :
      ¬failed → Session.parse .empty source = (expr, fresh) →
      Comes failed pending (.parse source) (.tree expr) fresh.diagnostics
  | runSkipped {source : String} :
      failed → Comes failed pending (.run source) (.output none) (Scan.ofSource source).diagnostics
  | parseSkipped {source : String} :
      failed → Comes failed pending (.parse source) (.tree none) (Scan.ofSource source).diagnostics
  | scan {source : String} :
      Comes failed pending (.scan source) (.tokens (Scan.ofSource source).tokens)
        (Scan.ofSource source).diagnostics
  | take : Comes failed pending .take (.taken pending) []
  | reset : Comes failed pending .reset .done []

/-- What a call leaves in a log, by what it reports. -/
def Call.leave (log : Log) (reported : List Diagnostic) : Call → Log
  | .take => { log with diagnostics := [] }
  | .reset => .empty
  | _ => log.reportAll reported

theorem reportAll_of_error {log : Log} (error : log.hasError = true)
    (diagnostics : List Diagnostic) : (log.reportAll diagnostics).hasError = true := by
  rw [Log.reportAll_eq, error, Bool.true_or]

/-- Under a log with an error, parsing comes to scanning, whatever the parser. -/
theorem stagedParse_of_error {log : Log} (error : log.hasError = true) (source : String)
    (parser : Log → List Token → Option Expr × Log) :
    stagedParse parser log source =
      (none, log.reportAll (Scan.ofSource source).diagnostics) := by
  simp only [stagedParse, reportAll_of_error error, if_true]

theorem staged_of_error {log : Log} (error : log.hasError = true) (source : String)
    (parser : Log → List Token → Option Expr × Log)
    (evaluator : Log → Expr → Except MisplacedOperator (Option String × Log)) :
    staged parser evaluator log source =
      .ok (none, log.reportAll (Scan.ofSource source).diagnostics) := by
  simp only [staged, reportAll_of_error error, if_true]

/-- Tokens are parsed alike over any log, and what is reported is put behind. -/
theorem parseTokens_eq_reportAll (log : Log) (tokens : List Token) :
    parseTokens log tokens =
      ((parseTokens .empty tokens).1,
        log.reportAll (parseTokens .empty tokens).2.diagnostics) := by
  rw [parseTokens, parseTokens]
  cases (Parser.ofTokens tokens).parse.1 <;> rfl

theorem parse_of_clean {log : Log} (clean : log.hasError = false) (source : String) :
    parse log source =
      ((parse .empty source).1, log.reportAll (parse .empty source).2.diagnostics) := by
  by_cases silent : (Scan.ofSource source).diagnostics = []
  · rw [parse_of_silent silent, ← parseTokens_eq_reportAll]
    simp only [parse, silent, Log.reportAll, List.foldl_nil, clean, Bool.false_eq_true, if_false]
  · have faulty := congrArg Log.hasError (Scan.reportAll_of_faulty silent)
    rw [Log.reportAll_eq] at faulty
    have error : (log.reportAll (Scan.ofSource source).diagnostics).hasError = true := by
      rw [Log.reportAll_eq, clean]
      exact faulty
    rw [parse_of_faulty silent, parse, if_pos error]

theorem interpret_eq_reportAll (log : Log) (expr : Expr) :
    interpret log expr = (interpret .empty expr).map fun outcome =>
      (outcome.1, log.reportAll outcome.2.diagnostics) := by
  rw [interpret, interpret]
  cases expr.eval with
  | ok value => rfl
  | error error => cases error <;> rfl

theorem run_of_clean {log : Log} (clean : log.hasError = false) (source : String) :
    run log source = (run .empty source).map fun outcome =>
      (outcome.1, log.reportAll outcome.2.diagnostics) := by
  rw [run, run, parse_of_clean clean]
  obtain ⟨outcome, ending, -, course⟩ := run_course source
  generalize parse .empty source = read at course
  cases course with
  | lexical | syntactic => rfl
  | runtime | value => exact interpret_eq_reportAll log _

/-- Every call is carried out, and comes to what the flag of the log says. -/
theorem Call.perform_comes (call : Call) (log : Log) :
    ∃ reply reported, call.perform log = .ok (reply, call.leave log reported) ∧
      Comes (log.hasError = true) log.diagnostics call reply reported := by
  cases call with
  | run source =>
      cases flag : log.hasError with
      | true =>
          refine ⟨_, _, ?_, .runSkipped rfl⟩
          rw [perform, run_eq_staged, staged_of_error flag]
          rfl
      | false =>
          obtain ⟨⟨output, fresh⟩, runs⟩ := run_eq_ok .empty source
          refine ⟨_, _, ?_, .run Bool.false_ne_true runs⟩
          rw [perform, run_of_clean flag, runs]
          rfl
  | parse source =>
      cases flag : log.hasError with
      | true =>
          refine ⟨_, _, ?_, .parseSkipped rfl⟩
          rw [perform, parse_eq_stagedParse, stagedParse_of_error flag]
          rfl
      | false =>
          refine ⟨_, _, ?_, .parse Bool.false_ne_true rfl⟩
          rw [perform, parse_of_clean flag]
          rfl
  | scan source => exact ⟨_, _, rfl, .scan⟩
  | take => exact ⟨_, _, rfl, .take⟩
  | reset => exact ⟨_, _, rfl, .reset⟩

namespace Comes

variable {failed : Prop} {held : List Diagnostic} {call : Call} {reply : Reply}
  {reported : List Diagnostic}

theorem drop_leave (comes : Comes failed held call reply reported) (log : Log) :
    (call.leave log reported).diagnostics.drop log.diagnostics.length = reported := by
  cases comes with
  | take | reset => exact List.drop_nil
  | run | parse | runSkipped | parseSkipped | scan =>
      simp only [Call.leave, Log.reportAll_eq, List.drop_left]

/-- The flag of the log is set by a fault in the text of a program, and cleared by a reset. -/
theorem hasError_leave_iff (comes : Comes failed held call reply reported) (log : Log) :
    (call.leave log reported).hasError = true ↔
      call ≠ .reset ∧
        (log.hasError = true ∨ ∃ diagnostic ∈ reported, diagnostic.stage ≠ .runtime) := by
  cases comes with
  | take | reset => simp [Call.leave, Log.empty]
  | run | parse | runSkipped | parseSkipped | scan => simp [Call.leave, Log.reportAll_eq]

/-- After a fault in the text of a program, only the characters of further texts are reported
about. -/
theorem reported_of_failed (comes : Comes failed held call reply reported) (isFailed : failed)
    {source : String} (looks : call = .run source ∨ call = .parse source) :
    reported = (Scan.ofSource source).diagnostics := by
  cases comes with
  | run clean | parse clean => exact absurd isFailed clean
  | runSkipped | parseSkipped => rcases looks with ⟨⟨⟩⟩ | ⟨⟨⟩⟩; rfl
  | scan | take | reset => rcases looks with ⟨⟨⟩⟩ | ⟨⟨⟩⟩

/-- What a call returns and reports is decided by whether the text of a program has failed,
except that `take` returns what is pending. -/
theorem unique (comes : Comes failed held call reply reported) {otherHeld : List Diagnostic}
    {otherReply : Reply} {otherReported : List Diagnostic}
    (other : Comes failed otherHeld call otherReply otherReported) :
    reported = otherReported ∧ (call ≠ .take → reply = otherReply) := by
  cases comes with
  | run clean runs =>
      cases other with
      | run _ runsOther =>
          rw [runs] at runsOther
          cases runsOther
          exact ⟨rfl, fun _ => rfl⟩
      | runSkipped failed => exact absurd failed clean
  | parse clean reads =>
      cases other with
      | parse _ readsOther =>
          rw [reads] at readsOther
          cases readsOther
          exact ⟨rfl, fun _ => rfl⟩
      | parseSkipped failed => exact absurd failed clean
  | runSkipped failed =>
      cases other with
      | run clean => exact absurd failed clean
      | runSkipped => exact ⟨rfl, fun _ => rfl⟩
  | parseSkipped failed =>
      cases other with
      | parse clean => exact absurd failed clean
      | parseSkipped => exact ⟨rfl, fun _ => rfl⟩
  | scan =>
      cases other
      exact ⟨rfl, fun _ => rfl⟩
  | take =>
      cases other
      exact ⟨rfl, fun noTake => absurd rfl noTake⟩
  | reset =>
      cases other
      exact ⟨rfl, fun _ => rfl⟩

end Comes

/-! ## Chains of calls -/

/-- Calls that were carried out one after the other, each over the log that the one before
it left. -/
inductive Chain : Log → List Entry → Log → Prop where
  | nil {log : Log} : Chain log [] log
  | cons {entry : Entry} {entries : List Entry} {last : Log} :
      entry.call.perform entry.before = .ok (entry.reply, entry.after) →
      Chain entry.after entries last → Chain entry.before (entry :: entries) last

theorem Chain.cons_iff {log last : Log} {entry : Entry} {entries : List Entry} :
    Chain log (entry :: entries) last ↔
      log = entry.before ∧ entry.call.perform entry.before = .ok (entry.reply, entry.after) ∧
        Chain entry.after entries last := by
  constructor
  · intro chain
    cases chain with
    | cons performs rest => exact ⟨rfl, performs, rest⟩
  · rintro ⟨rfl, performs, rest⟩
    exact .cons performs rest

theorem Chain.append_iff {log last : Log} {front back : List Entry} :
    Chain log (front ++ back) last ↔ ∃ middle, Chain log front middle ∧ Chain middle back last := by
  constructor
  · intro chain
    induction front generalizing log with
    | nil => exact ⟨log, .nil, chain⟩
    | cons entry front ih =>
        obtain ⟨rfl, performs, rest⟩ := cons_iff.mp chain
        obtain ⟨middle, first, second⟩ := ih rest
        exact ⟨middle, .cons performs first, second⟩
  · rintro ⟨middle, first, second⟩
    induction first with
    | nil => exact second
    | cons performs _ ih => exact .cons performs (ih second)

theorem history_cons {entry : Entry} {calls : List Call} {entries : List Entry}
    (performs : entry.call.perform entry.before = .ok (entry.reply, entry.after))
    (found : history entry.after calls = .ok entries) :
    history entry.before (entry.call :: calls) = .ok (entry :: entries) := by
  rw [history, performs]
  simp only [bind, Except.bind, found]
  rfl

theorem history_eq_ok_iff {log : Log} {calls : List Call} {entries : List Entry} :
    history log calls = .ok entries ↔
      entries.map Entry.call = calls ∧ ∃ last, Chain log entries last := by
  constructor
  · intro found
    induction calls generalizing log entries with
    | nil =>
        cases found
        exact ⟨rfl, log, .nil⟩
    | cons call calls ih =>
        obtain ⟨⟨reply, after⟩, performs, continued⟩ := bind_eq_ok found
        obtain ⟨rest, foundRest, concat⟩ := bind_eq_ok continued
        cases concat
        obtain ⟨rfl, last, chain⟩ := ih foundRest
        exact ⟨rfl, last, @Chain.cons ⟨call, log, reply, after⟩ rest last performs chain⟩
  · rintro ⟨rfl, last, chain⟩
    induction chain with
    | nil => rfl
    | cons performs _ ih => exact history_cons performs ih

theorem exists_history (log : Log) (calls : List Call) :
    ∃ entries, history log calls = .ok entries := by
  induction calls generalizing log with
  | nil => exact ⟨[], rfl⟩
  | cons call calls ih =>
      obtain ⟨reply, reported, performs, -⟩ := call.perform_comes log
      obtain ⟨entries, found⟩ := ih (call.leave log reported)
      exact ⟨_, @history_cons ⟨call, log, reply, _⟩ calls entries performs found⟩

theorem Entry.comes {entry : Entry}
    (performs : entry.call.perform entry.before = .ok (entry.reply, entry.after)) :
    entry.after = entry.call.leave entry.before entry.reported ∧
      Comes (entry.before.hasError = true) entry.before.diagnostics entry.call entry.reply
        entry.reported := by
  obtain ⟨reply, reported, performed, comes⟩ := entry.call.perform_comes entry.before
  rw [performed] at performs
  obtain ⟨rfl, after⟩ := Prod.mk.inj (Except.ok.inj performs)
  have same : entry.reported = reported := by
    rw [Entry.reported, ← after]
    exact comes.drop_leave entry.before
  rw [same]
  exact ⟨after.symm, comes⟩

/-! ## What of a history matters -/

theorem failed_concat_iff {earlier : List Entry} {entry : Entry} :
    Failed (earlier ++ [entry]) ↔
      entry.call ≠ .reset ∧
        (Failed earlier ∨ ∃ diagnostic ∈ entry.reported, diagnostic.stage ≠ .runtime) := by
  rw [Failed, Failed, List.rtakeWhile_concat]
  by_cases reset : entry.call = .reset
  · simp [reset]
  · simp [reset, or_and_right, exists_or, or_comm]

theorem pending_concat {earlier : List Entry} {entry : Entry} :
    pending (earlier ++ [entry]) =
      if entry.keeps then pending earlier ++ entry.reported else [] := by
  rw [pending, pending, List.rtakeWhile_concat]
  split
  next => rw [List.flatMap_append, List.flatMap_singleton]
  next => rfl

/-- A log that tells what of its history matters: whether the text of a program has failed,
and what is pending. -/
structure Tells (log : Log) (earlier : List Entry) : Prop where
  hasError_iff : log.hasError = true ↔ Failed earlier
  diagnostics : log.diagnostics = pending earlier

theorem Tells.empty : Tells .empty [] := by
  constructor
  · simp [Log.empty, Failed]
  · rfl

/-- What a log tells of its history is kept up by every call. -/
theorem Tells.concat {earlier : List Entry} {entry : Entry} (tells : Tells entry.before earlier)
    (performs : entry.call.perform entry.before = .ok (entry.reply, entry.after)) :
    Tells entry.after (earlier ++ [entry]) := by
  obtain ⟨after, comes⟩ := entry.comes performs
  constructor
  · rw [after, comes.hasError_leave_iff, failed_concat_iff, tells.hasError_iff]
  · rw [after, pending_concat, ← tells.diagnostics, Entry.keeps]
    cases entry.call with
    | take | reset => rfl
    | run | parse | scan =>
        rw [Call.leave, Log.reportAll_eq]
        · rfl
        · rintro ⟨⟩
        · rintro ⟨⟩

/-! ## Histories that differ -/

/-- One call in two histories: it reports the same, and returns the same unless it takes what
is pending. -/
structure Entry.Agrees (left right : Entry) : Prop where
  call : left.call = right.call
  reported : left.reported = right.reported
  reply : left.call ≠ .take → left.reply = right.reply

/-- The same call over logs with the same flag. -/
theorem Entry.agrees {left right : Entry} (call : left.call = right.call)
    (flag : left.before.hasError = right.before.hasError)
    (leftPerforms : left.call.perform left.before = .ok (left.reply, left.after))
    (rightPerforms : right.call.perform right.before = .ok (right.reply, right.after)) :
    left.Agrees right ∧ left.after.hasError = right.after.hasError := by
  obtain ⟨leftAfter, leftComes⟩ := left.comes leftPerforms
  obtain ⟨rightAfter, rightComes⟩ := right.comes rightPerforms
  have leftFlag := leftComes.hasError_leave_iff left.before
  have rightFlag := rightComes.hasError_leave_iff right.before
  rw [← flag, ← call] at rightComes
  obtain ⟨reported, reply⟩ := leftComes.unique rightComes
  refine ⟨⟨call, reported, reply⟩, ?_⟩
  rw [Bool.eq_iff_iff, leftAfter, rightAfter, leftFlag, rightFlag, call, flag, reported]

/-- Histories over logs with the same flag agree call for call. -/
theorem Chain.agrees {left last : Log} {entries : List Entry} (chain : Chain left entries last)
    {right : Log} (flag : left.hasError = right.hasError) :
    ∃ others, history right (entries.map Entry.call) = .ok others ∧
      List.Forall₂ Entry.Agrees entries others := by
  induction chain generalizing right with
  | nil => exact ⟨[], rfl, .nil⟩
  | @cons entry entries last performs _ ih =>
      obtain ⟨reply, reported, performed, -⟩ := entry.call.perform_comes right
      generalize entry.call.leave right reported = after at performed
      obtain ⟨agrees, flagAfter⟩ :=
        @Entry.agrees entry ⟨entry.call, right, reply, after⟩ rfl flag performs performed
      obtain ⟨others, found, agreeRest⟩ := ih flagAfter
      have whole := @history_cons ⟨entry.call, right, reply, after⟩ _ _ performed found
      exact ⟨_, whole, .cons agrees agreeRest⟩

/-- How a call follows those before it. The log that it is carried out over says whether the
text of a program has failed since the last reset. This decides what the call returns and
reports. What it reports is put behind the diagnostics of the log. Neither parser nor
evaluator has a part in it if a text has failed: any others in their places give the same. -/
structure Entry.Follows (earlier : List Entry) (entry : Entry) : Prop where
  hasError_iff : entry.before.hasError = true ↔ Failed earlier
  comes : Comes (Failed earlier) (pending earlier) entry.call entry.reply entry.reported
  after_eq : entry.after = entry.call.leave entry.before entry.reported
  unparsed : Failed earlier → ∀ source parser, entry.call = .parse source →
    stagedParse parser entry.before source = (none, entry.after)
  unevaluated : Failed earlier → ∀ source parser evaluator, entry.call = .run source →
    staged parser evaluator entry.before source = .ok (none, entry.after)

theorem Tells.follows {earlier : List Entry} {entry : Entry} (tells : Tells entry.before earlier)
    (performs : entry.call.perform entry.before = .ok (entry.reply, entry.after)) :
    entry.Follows earlier := by
  obtain ⟨after, comes⟩ := entry.comes performs
  rw [propext tells.hasError_iff, tells.diagnostics] at comes
  refine ⟨tells.hasError_iff, comes, after, ?unparsed, ?unevaluated⟩
  case unparsed =>
    intro failed source parser call
    rw [stagedParse_of_error (tells.hasError_iff.mpr failed), after,
      comes.reported_of_failed failed (.inr call), call, Call.leave]
    · rintro ⟨⟩
    · rintro ⟨⟩
  case unevaluated =>
    intro failed source parser evaluator call
    rw [staged_of_error (tells.hasError_iff.mpr failed), after,
      comes.reported_of_failed failed (.inl call), call, Call.leave]
    · rintro ⟨⟩
    · rintro ⟨⟩

/-- Type errors, and calls that report nothing, leave the flag of the log as it is. -/
theorem Entry.Follows.hasError_eq {earlier : List Entry} {entry : Entry}
    (follows : entry.Follows earlier) (noReset : entry.call ≠ .reset)
    (runtimeOnly : ∀ diagnostic ∈ entry.reported, diagnostic.stage = .runtime) :
    entry.after.hasError = entry.before.hasError := by
  have leaves := follows.comes.hasError_leave_iff entry.before
  rw [← follows.after_eq] at leaves
  rw [Bool.eq_iff_iff, leaves]
  constructor
  · rintro ⟨-, before | ⟨diagnostic, member, text⟩⟩
    · exact before
    · exact absurd (runtimeOnly diagnostic member) text
  · exact fun before => ⟨noReset, .inl before⟩

theorem Chain.follows {log last : Log} {entries : List Entry} (chain : Chain log entries last)
    {earlier : List Entry} (tells : Tells log earlier) :
    ∀ front entry back, entries = front ++ entry :: back → entry.Follows (earlier ++ front) := by
  induction chain generalizing earlier with
  | nil =>
      intro front entry back split
      simp at split
  | @cons first entries last performs _ ih =>
      intro front entry back split
      cases front with
      | nil =>
          cases split
          rw [List.append_nil]
          exact tells.follows performs
      | cons _ front =>
          cases split
          have later := ih (tells.concat performs) front entry back rfl
          rwa [List.append_assoc] at later

/-- A log that is shared carries one thing from call to call: whether the text of a program
has failed since the last reset. Every sequence of calls can be carried out, and each call
follows those before it. Histories over logs with the same flag agree from there on. So a
call that reports type errors only, or nothing, as `take` does, can be left out of a history
without a change to the calls after it. -/
theorem history_shared (calls : List Call) :
    ∃ entries, history .empty calls = .ok entries ∧ entries.map Entry.call = calls ∧
      (∀ front entry back, entries = front ++ entry :: back →
        entry.Follows front ∧
        (∀ log : Log, log.hasError = entry.before.hasError →
          ∃ others, history log ((entry :: back).map Entry.call) = .ok others ∧
            List.Forall₂ Entry.Agrees (entry :: back) others) ∧
        (entry.call ≠ .reset → (∀ diagnostic ∈ entry.reported, diagnostic.stage = .runtime) →
          ∃ others, history .empty ((front ++ back).map Entry.call) = .ok (front ++ others) ∧
            List.Forall₂ Entry.Agrees back others)) := by
  obtain ⟨entries, found⟩ := exists_history .empty calls
  obtain ⟨same, last, chain⟩ := history_eq_ok_iff.mp found
  refine ⟨entries, found, same, ?_⟩
  rintro front entry back rfl
  have follows := chain.follows .empty front entry back rfl
  rw [List.nil_append] at follows
  obtain ⟨middle, toMiddle, fromMiddle⟩ := Chain.append_iff.mp chain
  obtain ⟨rfl, performs, rest⟩ := Chain.cons_iff.mp fromMiddle
  refine ⟨follows, ?_, ?_⟩
  · intro log flag
    exact fromMiddle.agrees flag.symm
  · intro noReset runtimeOnly
    have flag := follows.hasError_eq noReset runtimeOnly
    obtain ⟨others, foundOthers, agrees⟩ := rest.agrees flag
    obtain ⟨callsOthers, lastOther, chainOthers⟩ := history_eq_ok_iff.mp foundOthers
    refine ⟨others, history_eq_ok_iff.mpr ⟨?_, lastOther, ?_⟩, agrees⟩
    · rw [List.map_append, List.map_append, callsOthers]
    · exact Chain.append_iff.mpr ⟨_, toMiddle, chainOthers⟩

/-- Diagnostics can be taken out, but only a reset makes a log run texts again. -/
example :
    (history .empty [.run "(1", .take, .run "2", .reset, .run "-nil", .run "2"]).map
        (·.map Entry.reply) =
      .ok [.output none,
        .taken [⟨.syntactic, 1, .atEnd, "Expect ')' after expression."⟩],
        .output none, .done, .output none, .output (some "2")] := by
  decide +kernel

end Reckon.Session
