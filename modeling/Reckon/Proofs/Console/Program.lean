import Reckon.Console.Runner
import Reckon.Proofs.Session.History

/-!
# Programs on a screen

A program is the text that some bytes encode. It runs over the log of a screen, and the
screen follows: it writes what the log gains, and ends up with the log that the program
left.
-/

namespace Reckon.Console

/-! ## Texts and their bytes -/

/-- The encoding of a text in UTF-8. -/
def encode (text : String) : List UInt8 := text.toByteArray.data.toList

/-- Diagnostics as they are written, each on a line of its own. -/
def diagnosticsText (diagnostics : List Diagnostic) : String :=
  String.join (diagnostics.map fun diagnostic => diagnostic.toText ++ "\n")

variable {screen : Screen} {showTree : Bool} {source : String} {result : Option String}

/-- Every program is run or read over any log, and does nothing to it but report. -/
theorem evaluate_reports (showTree : Bool) (log : Log) (source : String) :
    ∃ result reported, evaluate showTree log source = .ok (result, log.reportAll reported) := by
  cases showTree with
  | true =>
      obtain ⟨reply, reported, performs, -⟩ := (Session.Call.parse source).perform_comes log
      obtain ⟨-, after⟩ := Prod.mk.inj (Except.ok.inj performs)
      exact ⟨(Session.parse log source).1.map Expr.toText, reported,
        congrArg (fun after => Except.ok (_, after)) after⟩
  | false =>
      obtain ⟨reply, reported, performs, -⟩ := (Session.Call.run source).perform_comes log
      rw [Session.Call.perform] at performs
      cases runs : Session.run log source with
      | error operator =>
          rw [runs] at performs
          cases performs
      | ok outcome =>
          rw [runs] at performs
          obtain ⟨-, after⟩ := Prod.mk.inj (Except.ok.inj performs)
          exact ⟨outcome.1, reported,
            runs.trans (congrArg (fun after => Except.ok (outcome.1, after)) after)⟩

namespace Screen

/-- Reports are written in their order, and the log of the screen keeps them all. -/
theorem foldl_report (screen : Screen) (diagnostics : List Diagnostic) :
    diagnostics.foldl report screen =
      ⟨screen.output, screen.errors ++ diagnosticsText diagnostics,
        screen.log.reportAll diagnostics⟩ := by
  induction diagnostics generalizing screen with
  | nil => rw [diagnosticsText, List.map_nil, String.join_nil, String.append_empty]; rfl
  | cons diagnostic diagnostics ih =>
      rw [List.foldl_cons, ih]
      simp only [report, diagnosticsText, List.map_cons, String.join_cons, String.append_assoc]
      rfl

/-- A screen follows a program that has reported something: it writes the reports, and its
log becomes that of the program. -/
theorem follow_reportAll (screen : Screen) (reported : List Diagnostic) :
    screen.follow (screen.log.reportAll reported) =
      ⟨screen.output, screen.errors ++ diagnosticsText reported,
        screen.log.reportAll reported⟩ := by
  have gained : (screen.log.reportAll reported).diagnostics.drop
      screen.log.diagnostics.length = reported := by
    rw [Log.reportAll_eq, List.drop_left]
  rw [follow, gained, foldl_report]

/-- What a program leaves on a screen is what was there, its result and its reports. -/
theorem run_of_evaluate {reported : List Diagnostic}
    (evaluates : evaluate showTree screen.log source =
      .ok (result, screen.log.reportAll reported)) :
    screen.run showTree source =
      .ok ⟨screen.output ++ resultText result, screen.errors ++ diagnosticsText reported,
        screen.log.reportAll reported⟩ := by
  rw [run, evaluates]
  simp only [follow_reportAll]
  rfl

end Screen

end Reckon.Console
