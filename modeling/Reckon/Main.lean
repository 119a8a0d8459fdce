import Reckon.Console.Generator
import Reckon.Console.Runner

/-!
# The program

Runs the program in a file, or the lines typed at a prompt. With `generate` in
front of a directory it writes the code for the syntax trees there instead.
-/

namespace Reckon.Main

/-- Write what a program leaves behind, and end with its exit code. -/
def emit (transcript : Console.Transcript) : IO UInt32 := do
  IO.print transcript.output
  IO.eprint transcript.errors
  return UInt32.ofNat transcript.code

/-- End because of a command line that is not carried out. -/
def refuse (error : Console.UsageError) : IO UInt32 := do
  let usage := "usage: reckon [--print-ast] [FILE]\n       reckon generate DIRECTORY"
  if error = .help then IO.println usage else IO.eprintln usage
  return UInt32.ofNat error.exitCode

/-- Write what a screen holds, and go on with an empty one. -/
def clear (screen : Console.Screen) : IO Console.Screen := do
  IO.print screen.output
  (← IO.getStdout).flush
  IO.eprint screen.errors
  return .start screen.log

/-- The bytes up to the next line feed, or up to the end of the input. -/
partial def readBytes (input : IO.FS.Stream) (before : ByteArray) : IO ByteArray := do
  let next ← input.read 1
  let bytes := before ++ next
  if next.isEmpty || next.data.contains 10 then return bytes else readBytes input bytes

/-- The next line of the input, if there is one. -/
def readLine : IO (Option (List UInt8)) := do
  let bytes ← readBytes (← IO.getStdin) .empty
  return (Console.inputLines bytes.toList).head?

/-- Run lines as they are typed in, until there is no other. -/
partial def prompt (showTree : Bool) (screen : Console.Screen) : IO Console.Transcript := do
  let screen ← clear (screen.write Console.promptText)
  match screen.receive showTree (← readLine) with
  | .ok screen => prompt showTree screen
  | .error transcript => return transcript

/-- The failure that an error of the system stands for, if it is about files. Some
operations give the number of an error and some its negative. -/
def fileError? : IO.Error → Option FileError
  | .noFileOrDirectory .. => some .notFound
  | .alreadyExists .. => some .exists
  | .inappropriateType _ code _ =>
      if code = 21 || code = -21 then some .isDirectory else some .notDirectory
  | .invalidArgument _ code _ =>
      if code = 36 || code = -36 then some .nameTooLong else none
  | _ => none

/-- Carry out an operation on files; errors that are not about files go on. -/
def attempt (operation : IO α) : IO (Except FileError α) := do
  try
    return .ok (← operation)
  catch error =>
    match fileError? error with
    | some error => return .error error
    | none => throw error

/-- Make a directory and those above it. Directories that are there are kept. -/
def makeDirectories (folder : String) : IO (Except FileError Unit) := do
  match ← attempt (IO.FS.createDir folder) with
  | .error .notFound | .error .exists => attempt (IO.FS.createDirAll folder)
  | result => return result

def disk : Disk IO where
  createDirectories := makeDirectories
  writeFile path content := attempt (IO.FS.writeFile path content)

def run (options : Console.RunOptions) : IO Console.Transcript := do
  match options.file with
  | none => prompt options.showTree (.start .empty)
  | some path =>
      let contents ← attempt (IO.FS.readBinFile path)
      return Console.run options (fun _ => contents.map ByteArray.toList) []

def dispatch : List String → IO UInt32
  | "generate" :: arguments =>
      match Console.readOutputDirectory arguments with
      | .ok directory => do emit (← Console.writeExpr disk directory)
      | .error error => refuse error
  | arguments =>
      match Console.RunOptions.read arguments with
      | .ok options => do emit (← run options)
      | .error error => refuse error

end Reckon.Main

/-- Carry out the command line; a failure of the system ends it with its message. -/
def main (arguments : List String) : IO UInt32 := do
  try
    Reckon.Main.dispatch arguments
  catch error =>
    Reckon.Main.emit (.failure (toString error))
