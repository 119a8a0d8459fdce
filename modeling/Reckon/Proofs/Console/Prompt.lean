import Mathlib.Data.List.Forall2
import Reckon.Proofs.Console.Program
import Reckon.Proofs.Session.Blame

/-!
# The prompt

At the prompt every line is a program of its own. The lines share a screen, and the log of
the screen is empty again before each of them, so that a line comes to the same as it would
alone.
-/

namespace Reckon

/-! ## Programs of one line -/

section OneLine

variable {source : String}

namespace Scan

end Scan

namespace Session

variable {spots : List Spot} {log : Log}

theorem line_of_mem_report {last : Diagnostic} (isLine : last.line = 1)
    (earlier : ∀ diagnostic ∈ log.diagnostics, diagnostic.line = 1) :
    ∀ diagnostic ∈ (log.report last).diagnostics, diagnostic.line = 1 := by
  intro diagnostic member
  rcases List.mem_append.mp member with member | member
  · exact earlier diagnostic member
  · rw [List.mem_singleton.mp member]
    exact isLine

theorem ParsesAt.line {parsed : Option Expr × Log} (parses : ParsesAt spots log parsed)
    (lines : ∀ spot ∈ spots, lineBehind spot.before = 1)
    (earlier : ∀ diagnostic ∈ log.diagnostics, diagnostic.line = 1) :
    ∀ diagnostic ∈ parsed.2.diagnostics, diagnostic.line = 1 := by
  cases parses with
  | skipped | accepted => exact earlier
  | @refused _ _ _ _ spot _ _ split =>
      exact line_of_mem_report (lines spot (by rw [split]; simp)) earlier

theorem RunsAt.line {parsed : Option Expr × Log} {outcome : Option String × Log}
    (runs : RunsAt spots parsed (.ok outcome))
    (lines : ∀ spot ∈ spots, lineBehind spot.before = 1)
    (earlier : ∀ diagnostic ∈ parsed.2.diagnostics, diagnostic.line = 1) :
    ∀ diagnostic ∈ outcome.2.diagnostics, diagnostic.line = 1 := by
  cases runs with
  | unparsed | succeeded => exact earlier
  | @failed _ _ _ _ _ _ spot _ _ split =>
      exact line_of_mem_report (lines spot (by rw [split]; simp)) earlier

end Session

end OneLine

namespace Console

/-! ## Lines of an input -/

namespace Delivers

variable {input : List UInt8} {lines : List (List UInt8)}

end Delivers

variable {showTree : Bool}

namespace Screen

/-- A screen below what was written before. -/
def below (output errors : String) (screen : Screen) : Screen :=
  ⟨output ++ screen.output, errors ++ screen.errors, screen.log⟩

variable (output errors : String) (screen : Screen)

@[simp] theorem start_below : (start screen.log).below screen.output screen.errors = screen := by
  simp only [below, start, String.append_empty]

theorem runLine_below (line : List UInt8) :
    (screen.below output errors).runLine showTree line =
      match screen.runLine showTree line with
      | .ok next => .ok (next.below output errors)
      | .error last => .error (.writeBefore output errors last) := by
  cases decodes : decode line with
  | error error =>
      simp only [runLine, decodes, leaveWith, below, Transcript.writeBefore, String.append_assoc]
  | ok source =>
      obtain ⟨result, reported, reports⟩ := evaluate_reports showTree screen.log source
      have here := run_of_evaluate reports
      have there : (screen.below output errors).run showTree source = _ :=
        run_of_evaluate reports
      simp only [runLine, decodes, here, there]
      simp only [below, reset, String.append_assoc]

/-- What was written before the lines has no part in what they leave. -/
theorem runLines_below (lines : List (List UInt8)) :
    runLines showTree (screen.below output errors) lines =
      .writeBefore output errors (runLines showTree screen lines) := by
  induction lines generalizing screen with
  | nil =>
      simp only [runLines, write, leave, below, Transcript.writeBefore, String.append_assoc]
  | cons line lines ih =>
      have awaits : (screen.below output errors).write promptText =
          (screen.write promptText).below output errors := by
        simp only [write, below, String.append_assoc]
      rw [runLines, awaits, runLine_below, runLines]
      cases (screen.write promptText).runLine showTree line with
      | ok next => exact ih next
      | error last => rfl

/-- The prompt can be run line by line: it is written, what comes in next is received on an
empty screen, and the prompt goes on from there unless it has ended. -/
theorem runLines_receive (lines : List (List UInt8)) :
    runLines showTree screen lines =
      (screen.write promptText).leaveWith
        (match (start screen.log).receive showTree lines.head? with
        | .ok next => runLines showTree next lines.tail
        | .error last => last) := by
  cases lines with
  | nil =>
      simp only [runLines, List.head?_nil, receive, leaveWith, leave, write, start,
        Transcript.writeBefore, String.append_empty]
  | cons line lines =>
      have awaits : (start screen.log).below (screen.write promptText).output
          (screen.write promptText).errors = screen.write promptText :=
        start_below (screen.write promptText)
      rw [runLines, ← awaits, runLine_below, awaits, List.head?_cons, receive]
      cases (start screen.log).runLine showTree line with
      | ok next => exact runLines_below ..
      | error last => rfl

end Screen

/-- Neither a line that cannot be read nor one that has no value keeps the next from being
run. -/
example :
    run ⟨none, false⟩ (fun _ => .error .notFound) (encode "(1\n-nil\r\n2") =
      ⟨0, "> > > 2\n> ",
        "[line 1] Error at end: Expect ')' after expression.\n" ++
          "Operand must be a number.\n[line 1]\n"⟩ := by
  decide +kernel

end Console

end Reckon
