/-!
# Diagnostics and logs

A diagnostic is what a program can be blamed for: the stage that found the fault, the line and
place, and a message. A diagnostic is written with its line before the message,
except that a fault of evaluation has it afterwards.
-/

namespace Reckon

/-- The stage that a fault belongs to. -/
inductive Stage where
  | lexical
  | syntactic
  | runtime
  deriving DecidableEq, Repr

/-- The place that a diagnostic points to within its line. -/
inductive Location where
  | unspecified
  | atEnd
  | atLexeme (lexeme : String)
  deriving DecidableEq, Repr

/-- The words for a place, to be put after "Error". -/
def Location.toText : Location → String
  | .unspecified => ""
  | .atEnd => " at end"
  | .atLexeme lexeme => " at '" ++ lexeme ++ "'"

structure Diagnostic where
  stage : Stage
  line : Nat
  location : Location
  message : String
  deriving DecidableEq, Repr

def Diagnostic.toText (diagnostic : Diagnostic) : String :=
  match diagnostic.stage with
  | .runtime => s!"{diagnostic.message}\n[line {diagnostic.line}]"
  | .lexical | .syntactic =>
      s!"[line {diagnostic.line}] Error{diagnostic.location.toText}: {diagnostic.message}"

/-!
## Logs

A log collects diagnostics. It also remembers whether the text or the evaluation
of a program has failed since it was last reset, and keeps remembering it when
the diagnostics themselves are taken out.
-/

/-- Diagnostics in the order of their reports, and what has failed so far. -/
structure Log where
  diagnostics : List Diagnostic
  hasError : Bool
  hasRuntimeError : Bool
  deriving DecidableEq, Repr

namespace Log

def empty : Log := ⟨[], false, false⟩

/-- Append a diagnostic. A fault in the text of a program sets one flag, a fault
of evaluation the other. -/
def report (log : Log) (diagnostic : Diagnostic) : Log where
  diagnostics := log.diagnostics ++ [diagnostic]
  hasError := log.hasError || diagnostic.stage != .runtime
  hasRuntimeError := log.hasRuntimeError || diagnostic.stage == .runtime

def reportAll (log : Log) (diagnostics : List Diagnostic) : Log :=
  diagnostics.foldl report log

/-- A fault in the characters of a program, which has a line but no place. -/
def reportLexical (log : Log) (line : Nat) (message : String) : Log :=
  log.report ⟨.lexical, line, .unspecified, message⟩

/-- A fault in the order of the tokens, at one of them. -/
def reportSyntax (log : Log) (line : Nat) (location : Location)
    (message : String) : Log :=
  log.report ⟨.syntactic, line, location, message⟩

/-- A fault of evaluation, which has a line but no place. -/
def reportRuntime (log : Log) (line : Nat) (message : String) : Log :=
  log.report ⟨.runtime, line, .unspecified, message⟩

/-- Take the diagnostics out and leave the flags as they are. -/
def take (log : Log) : List Diagnostic × Log :=
  (log.diagnostics, { log with diagnostics := [] })

/-- Forget the diagnostics and the flags. -/
def reset (_ : Log) : Log := empty

/-- The diagnostics in their written form, with line breaks between them. -/
def toText (log : Log) : String :=
  "\n".intercalate (log.diagnostics.map Diagnostic.toText)

end Log

end Reckon
