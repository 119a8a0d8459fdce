import Reckon.Console
import Reckon.FileTree

/-!
# Running programs

A program is either a file or typed in line by line. The result of a program goes
to the output and its diagnostics go to the errors. A file decides the exit code;
the lines at the prompt do not. They share one screen, whose log is reset after each
of them.
-/

namespace Reckon.Console

/-- What is to be run, and whether its tree is shown instead of its value. -/
structure RunOptions where
  file : Option String
  showTree : Bool
  deriving DecidableEq, Repr

def showTreeSwitch : String := "--print-ast"

def RunOptions.read (arguments : List String) : Except UsageError RunOptions :=
  (Arguments.read [showTreeSwitch] arguments).map fun arguments =>
    ⟨arguments.operand, arguments.switches.contains showTreeSwitch⟩

/-- Why a program cannot be read. -/
inductive ReadError where
  | file (error : FileError)
  | invalidUtf8
  deriving DecidableEq, Repr

def ReadError.message : ReadError → String
  | .file error => error.message
  | .invalidUtf8 => "stream did not contain valid UTF-8"

/-- The text with an encoding in UTF-8. -/
def decode (bytes : List UInt8) : Except ReadError String :=
  match String.fromUTF8? ⟨bytes.toArray⟩ with
  | some text => .ok text
  | none => .error .invalidUtf8

/-- The exit code after a program that is a file. An error in its text goes before
one of its evaluation. -/
def exitCode (log : Log) : Nat :=
  if log.hasError then 60 else if log.hasRuntimeError then 70 else 0

/-- The end of a program after an error in the interpreter itself. -/
def internalError (operator : MisplacedOperator) : Transcript :=
  ⟨101, "", operator.message ++ "\n"⟩

/-- Run a program over a log, or read it only. -/
def evaluate (showTree : Bool) (log : Log) (source : String) :
    Except MisplacedOperator (Option String × Log) :=
  if showTree then
    let (expr, log) := Session.parse log source
    .ok (expr.map Expr.toText, log)
  else Session.run log source

/-- A program's result on a line of its own. -/
def resultText (result : Option String) : String :=
  match result with
  | some text => text ++ "\n"
  | none => ""

def Screen.run (showTree : Bool) (screen : Screen) (source : String) :
    Except MisplacedOperator Screen :=
  match evaluate showTree screen.log source with
  | .ok (result, log) => .ok ((screen.follow log).write (resultText result))
  | .error operator => .error operator

def runFile (showTree : Bool) (source : String) : Transcript :=
  let screen := Screen.start .empty
  match screen.run showTree source with
  | .ok screen => screen.leave (exitCode screen.log)
  | .error operator => screen.leaveWith (internalError operator)

/-- A line without the carriage return at its end. -/
def dropCarriageReturn (line : List UInt8) : List UInt8 :=
  if line.getLast? = some 13 then line.dropLast else line

/-- The lines of an input. A line ends at a line feed, and a carriage return before
that belongs to the end; the last line may do without. -/
def inputLines (input : List UInt8) : List (List UInt8) :=
  let parts := input.splitOn 10
  parts.dropLast.map dropCarriageReturn ++
    (parts.getLast?.toList.filter fun line => !line.isEmpty)

/-- What is written when the next line is awaited. -/
def promptText : String := "> "

/-- Run a line on a screen and reset the log for the next one. A line that is no text
ends the prompt. -/
def Screen.runLine (showTree : Bool) (screen : Screen) (line : List UInt8) :
    Except Transcript Screen :=
  match decode line with
  | .error error => .error (screen.leaveWith (.failure error.message))
  | .ok source =>
      match screen.run showTree source with
      | .ok screen => .ok screen.reset
      | .error operator => .error (screen.leaveWith (internalError operator))

/-- Take what comes in at the prompt: a line, or the end of the input. -/
def Screen.receive (showTree : Bool) (screen : Screen) :
    Option (List UInt8) → Except Transcript Screen
  | some line => screen.runLine showTree line
  | none => .error (screen.leave 0)

/-- Run lines as they come in, until there is no other. -/
def runLines (showTree : Bool) (screen : Screen) : List (List UInt8) → Transcript
  | [] => (screen.write promptText).leave 0
  | line :: lines =>
      match (screen.write promptText).runLine showTree line with
      | .ok screen => runLines showTree screen lines
      | .error transcript => transcript

/-- Run what the options name: the contents of a file, or else the input. -/
def run (options : RunOptions) (contents : String → Except FileError (List UInt8))
    (input : List UInt8) : Transcript :=
  match options.file with
  | none => runLines options.showTree (.start .empty) (inputLines input)
  | some path =>
      match contents path with
      | .error error => .failure (ReadError.file error).message
      | .ok bytes =>
          match decode bytes with
          | .error error => .failure error.message
          | .ok source => runFile options.showTree source

end Reckon.Console
