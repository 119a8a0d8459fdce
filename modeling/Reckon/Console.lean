import Reckon.Session

/-!
# The console

What a program is given on the command line and what it leaves behind.
-/

/-!
## Transcripts

What a program leaves behind when it ends: its exit code, and what it wrote to its
two outputs.
-/

namespace Reckon.Console

/-- The exit code of a program and what it wrote. -/
structure Transcript where
  code : Nat
  output : String
  errors : String
  deriving DecidableEq, Repr

namespace Transcript

/-- A program that ends at once with a message. -/
def failure (message : String) : Transcript :=
  ⟨1, "", "Error: " ++ message ++ "\n"⟩

/-- What was written before the rest of a transcript. -/
def writeBefore (output errors : String) (rest : Transcript) : Transcript :=
  ⟨rest.code, output ++ rest.output, errors ++ rest.errors⟩

end Transcript

/-!
## Command-line arguments

A command line consists of switches and at most one operand, in any order. Behind
two hyphens alone everything is an operand, whatever it begins with; a hyphen alone
is an operand too.
-/

/-- What a command line says. -/
structure Arguments where
  switches : List String
  operand : Option String
  deriving DecidableEq, Repr

/-- Why a command line is not carried out. Asking for help is one reason. -/
inductive UsageError where
  | help
  | unknownSwitch (argument : String)
  | repeatedSwitch (argument : String)
  | unexpectedOperand (argument : String)
  | emptyOperand
  | missingOperand
  deriving DecidableEq, Repr

def UsageError.exitCode : UsageError → Nat
  | .help => 0
  | _ => 2

namespace Arguments

def setOperand (arguments : Arguments) (argument : String) :
    Except UsageError Arguments :=
  if arguments.operand.isSome then .error (.unexpectedOperand argument)
  else if argument.isEmpty then .error .emptyOperand
  else .ok { arguments with operand := some argument }

/-- Take an argument that begins with a hyphen as a switch. -/
def addSwitch (known : List String) (arguments : Arguments) (argument : String) :
    Except UsageError Arguments :=
  if argument = "--help" || "-h".toList.isPrefixOf argument.toList then .error .help
  else if argument ∉ known then .error (.unknownSwitch argument)
  else if argument ∈ arguments.switches then .error (.repeatedSwitch argument)
  else .ok { arguments with switches := arguments.switches ++ [argument] }

/-- Whether an argument is not an operand by its looks. -/
def looksLikeSwitch (argument : String) : Bool :=
  argument.toList.head? = some '-' && argument != "-"

/-- Take the arguments one by one, all of them as operands if so told. -/
def readFrom (known : List String) (arguments : Arguments) (operandsOnly : Bool) :
    List String → Except UsageError Arguments
  | [] => .ok arguments
  | argument :: rest =>
      if !operandsOnly && argument = "--" then readFrom known arguments true rest
      else if !operandsOnly && looksLikeSwitch argument then
        match addSwitch known arguments argument with
        | .ok arguments => readFrom known arguments operandsOnly rest
        | .error error => .error error
      else
        match setOperand arguments argument with
        | .ok arguments => readFrom known arguments operandsOnly rest
        | .error error => .error error

/-- Read a command line that may hold the given switches. -/
def read (known arguments : List String) : Except UsageError Arguments :=
  readFrom known ⟨[], none⟩ false arguments

end Arguments

/-!
## Screens

What a program has written so far, together with the log that it runs over. A diagnostic
is written as soon as it is reported. What is written stays when the log is reset.
-/

/-- What was written to the two outputs, and the log. -/
structure Screen where
  output : String
  errors : String
  log : Log
  deriving DecidableEq, Repr

namespace Screen

/-- A log under which nothing is written yet. -/
def start (log : Log) : Screen := ⟨"", "", log⟩

def write (screen : Screen) (text : String) : Screen :=
  { screen with output := screen.output ++ text }

/-- Write a diagnostic to the errors, and keep it in the log. -/
def report (screen : Screen) (diagnostic : Diagnostic) : Screen :=
  { screen with
    errors := screen.errors ++ (diagnostic.toText ++ "\n")
    log := screen.log.report diagnostic }

/-- Report what a later log holds behind the diagnostics that were there. -/
def follow (screen : Screen) (later : Log) : Screen :=
  (later.diagnostics.drop screen.log.diagnostics.length).foldl report screen

def reset (screen : Screen) : Screen :=
  { screen with log := screen.log.reset }

def leave (screen : Screen) (code : Nat) : Transcript :=
  ⟨code, screen.output, screen.errors⟩

/-- End with what another transcript says after that. -/
def leaveWith (screen : Screen) (last : Transcript) : Transcript :=
  .writeBefore screen.output screen.errors last

end Screen

end Reckon.Console
