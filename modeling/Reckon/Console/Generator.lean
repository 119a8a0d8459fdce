import Reckon.Console
import Reckon.FileTree
import Reckon.Schema

/-!
# Generating the syntax tree

The code for the syntax trees of the language is written below a directory that
the command line names. Nothing is written to the outputs unless that fails.
-/

/-! ## The grammar of expressions -/

namespace Reckon.Schema.ExprGrammar

/-- The name of the sum type. -/
def base : String := "Expr"

/-- The paths of the types that fields have. -/
def uses : List String := ["scanner::Token", "value::Value"]

def lines : List String :=
  ["Binary   : Box<Expr> left, Token operator, Box<Expr> right",
   "Grouping : Box<Expr> inner",
   "Literal  : Value value",
   "Unary    : Token operator, Box<Expr> operand"]

end Reckon.Schema.ExprGrammar

/-!
## Files of generated code

The code for a grammar is put into a file that is named for the sum type, in a
folder of its own. Nothing is touched unless the grammar is sound.
-/

namespace Reckon.Schema

/-- Why no file was written. -/
inductive GenerateError where
  | grammar (error : GrammarError)
  | file (path : String) (error : FileError)
  deriving DecidableEq, Repr

def GenerateError.message : GenerateError → String
  | .grammar error => error.message
  | .file path error => s!"Failed to write {path}: {error.message}"

def folder (directory : String) : String :=
  Path.join directory "ast"

/-- The file for the code of a sum type. -/
def filePath (directory base : String) : String :=
  Path.join (folder directory) (snakeCase base ++ ".rs")

/-- Write the code for a grammar into its file, and say where that is. -/
def write [Monad m] (disk : Disk m) (directory base : String) (uses lines : List String) :
    m (Except GenerateError String) := do
  match define base uses lines with
  | .error error => return .error (.grammar error)
  | .ok code =>
      match ← disk.createDirectories (folder directory) with
      | .error error => return .error (.file (folder directory) error)
      | .ok () =>
          let path := filePath directory base
          match ← disk.writeFile path code with
          | .error error => return .error (.file path error)
          | .ok () => return .ok path

/-- Write the code for a grammar into a tree of files. -/
def generate (tree : FileTree) (directory base : String) (uses lines : List String) :
    Except GenerateError String × FileTree :=
  (write FileTree.disk directory base uses lines).run tree

end Reckon.Schema

/-! ## The command -/

namespace Reckon.Console

/-- The directory that the command line of the generator names. -/
def readOutputDirectory (arguments : List String) : Except UsageError String :=
  match Arguments.read [] arguments with
  | .error error => .error error
  | .ok arguments =>
      match arguments.operand with
      | some directory => .ok directory
      | none => .error .missingOperand

/-- The report of a failure; the cause from the system is repeated below it. -/
def generateErrorText : Schema.GenerateError → String
  | .grammar error => error.message
  | .file path error =>
      (Schema.GenerateError.file path error).message ++
        "\n\nCaused by:\n    " ++ error.message

/-- Write the code for the syntax trees of the language below a directory. -/
def writeExpr [Monad m] (disk : Disk m) (directory : String) : m Transcript := do
  match ← Schema.write disk directory Schema.ExprGrammar.base Schema.ExprGrammar.uses
      Schema.ExprGrammar.lines with
  | .ok _ => return ⟨0, "", ""⟩
  | .error error => return .failure (generateErrorText error)

/-- Write that code into a tree of files. -/
def generateExpr (tree : FileTree) (directory : String) : Transcript × FileTree :=
  (writeExpr FileTree.disk directory).run tree

end Reckon.Console
