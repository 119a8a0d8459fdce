import Reckon.Text

/-!
# Code from a grammar

A grammar describes a syntax tree line by line, and becomes the code for its nodes.
-/

/-!
## Rules of a grammar

A grammar describes a syntax tree line by line. A line names a kind of node and,
behind a colon, its fields: pairs of a type and a name, with commas between them.
Blanks around the parts mean nothing, nor do empty fields.
-/

namespace Reckon.Schema

/-- A field of a node. -/
structure Field where
  type : String
  name : String
  deriving DecidableEq, Repr

/-- A kind of node with its fields. -/
structure Rule where
  typeName : String
  fields : List Field
  deriving DecidableEq, Repr

/-- Why a line describes no kind of node. -/
inductive GrammarError where
  | missingColon (line : String)
  | missingTypeName (line : String)
  | malformedField (rule field : String)
  | reservedFieldName (name : String)
  deriving DecidableEq, Repr

def GrammarError.message : GrammarError → String
  | .missingColon line =>
      "Expected `TypeName : type name, ...` but found no `:` in " ++ Text.quote line
  | .missingTypeName line => "Missing type name in " ++ Text.quote line
  | .malformedField rule field =>
      "Expected `type name` but found " ++ Text.quote field ++ " in rule " ++ rule
  | .reservedFieldName name => "`" ++ name ++ "` can't be used as a field name"

/-- The names that cannot be made fit for a field in any way. -/
def reservedNames : List String :=
  ["self", "Self", "super", "crate", "_"]

namespace Rule

/-- Read one field of a rule: a type and a name, with blanks between them. -/
def readField (typeName : String) (field : List Char) : Except GrammarError Field :=
  match Text.words field with
  | [type, name] =>
      if String.ofList name ∈ reservedNames then
        .error (.reservedFieldName (String.ofList name))
      else .ok ⟨String.ofList type, String.ofList name⟩
  | _ => .error (.malformedField typeName (String.ofList field))

/-- The texts between the commas, trimmed, as far as there is anything in them. -/
def fieldTexts (text : List Char) : List (List Char) :=
  ((text.splitOn ',').map Text.trim).filter (! ·.isEmpty)

/-- Read a line of a grammar. The first colon divides it, and the first field
that is no pair of a type and a name is at fault. -/
def ofLine (line : String) : Except GrammarError Rule :=
  match line.toList.dropWhile (· != ':') with
  | [] => .error (.missingColon line)
  | _ :: fields =>
      match Text.trim (line.toList.takeWhile (· != ':')) with
      | [] => .error (.missingTypeName line)
      | typeName =>
          let typeName := String.ofList typeName
          match (fieldTexts fields).mapM (readField typeName) with
          | .ok fields => .ok ⟨typeName, fields⟩
          | .error error => .error error

end Rule

/-!
## Names in generated code

A field is reached under its own name, which is marked as raw if it is a keyword
of the generated language. A parameter of that name is given another one instead.
Functions and files are named for types in lower case with underscores.
-/

/-- Keywords that are names when they are marked as raw, each with the name of a
parameter in its place. -/
def substitutes : List (String × String) :=
  [("as", "alias"), ("async", "is_async"), ("box", "boxed"), ("const", "constant"),
   ("dyn", "dynamic"), ("enum", "enumeration"), ("extern", "external"),
   ("fn", "function"), ("impl", "implementation"), ("in", "input"), ("let", "binding"),
   ("loop", "body"), ("match", "matched"), ("mod", "module"), ("move", "moved"),
   ("mut", "mutable"), ("pub", "public"), ("ref", "reference"), ("static", "is_static"),
   ("struct", "structure"), ("trait", "tr"), ("type", "ty"), ("use", "usage"),
   ("where", "clause")]

namespace Field

/-- The name of a field and of the function that reads it. -/
def identifier (field : Field) : String :=
  match substitutes.lookup field.name with
  | some _ => "r#" ++ field.name
  | none => field.name

/-- The name of a parameter that fills the field. -/
def parameter (field : Field) : String :=
  (substitutes.lookup field.name).getD field.name

/-- How a field is filled from its parameter; the parameter alone is enough where
both have one name. -/
def initializer (field : Field) : String :=
  if field.identifier = field.parameter then field.parameter
  else field.identifier ++ ": " ++ field.parameter

/-- The type that a field is read as: what is in a box, where there is one. -/
def accessorType (field : Field) : String :=
  match field.type.toList with
  | 'B' :: 'o' :: 'x' :: '<' :: inner =>
      if inner.getLast? = some '>' then String.ofList inner.dropLast else field.type
  | _ => field.type

end Field

/-- A name in lower case. An underscore stands before every letter that was a
capital, except at the front. -/
def snakeCase (name : String) : String :=
  String.ofList <|
    match name.toList with
    | [] => []
    | first :: rest =>
        Text.toLower first ++ rest.flatMap fun character =>
          if Text.isCapital character then '_' :: Text.toLower character else [character]

/-!
## Layout of generated code

Generated lines are indented by the braces around them: a brace at the end of a
line opens a block, and a brace at the front of a line closes one.
-/

/-- What a line of a given depth is indented by: four spaces for each block. -/
def indentation (depth : Nat) : String :=
  String.ofList (List.replicate (4 * depth) ' ')

/-- The depth that a line stands at, in a block of a given depth. -/
def depthOf (depth : Nat) (line : String) : Nat :=
  if line.toList.head? = some '\x7d' then depth - 1 else depth

/-- The depth behind a line that stands at a given depth. -/
def depthAfter (depth : Nat) (line : String) : Nat :=
  if line.toList.getLast? = some '\x7b' then depth + 1 else depth

/-- A line at its depth. An empty line stays empty. -/
def indentLine (depth : Nat) (line : String) : String :=
  if line.isEmpty then line else indentation depth ++ line

/-- The lines of a block and what follows it, indented. -/
def indentFrom (depth : Nat) : List String → List String
  | [] => []
  | line :: lines =>
      let depth := depthOf depth line
      indentLine depth line :: indentFrom (depthAfter depth line) lines

/-- A text of indented lines, each of them ended. -/
def layout (lines : List String) : String :=
  String.join ((indentFrom 0 lines).map (· ++ "\n"))

/-!
## Node models

The code for a syntax tree, from the rules of its grammar: a visitor with one
method for each kind of node, a sum type over the kinds, and for each kind a
record with a constructor, functions that read the fields, a function that accepts
a visitor, and the inclusion into the sum.
-/

/-- A grammar: the name of the sum type, the paths that its code makes use of, and
the kinds of nodes. -/
structure NodeModel where
  base : String
  uses : List String
  rules : List Rule
  deriving DecidableEq, Repr

namespace NodeModel

/-- Read the lines of a grammar. The first line that describes no kind of node is
at fault. -/
def ofLines (base : String) (uses lines : List String) : Except GrammarError NodeModel :=
  match lines.mapM Rule.ofLine with
  | .ok rules => .ok ⟨base, uses, rules⟩
  | .error error => .error error

/-- The name of a node that is passed as a parameter. -/
def parameter (model : NodeModel) : String :=
  snakeCase model.base

def recordName (model : NodeModel) (rule : Rule) : String :=
  rule.typeName ++ model.base

/-- The method of a visitor for a kind of node. -/
def visitMethod (model : NodeModel) (rule : Rule) : String :=
  s!"visit_{snakeCase rule.typeName}_{snakeCase model.base}"

def visitorLines (model : NodeModel) : List String :=
  ["pub trait Visitor<T> \x7b"] ++
    model.rules.map (fun rule =>
      s!"fn {model.visitMethod rule}(&mut self, {model.parameter}: " ++
        s!"&{model.recordName rule}) -> T;") ++
    ["\x7d"]

/-- The sum type and how it accepts a visitor. -/
def sumLines (model : NodeModel) : List String :=
  ["#[derive(Debug, Clone, PartialEq)]", s!"pub enum {model.base} \x7b"] ++
    model.rules.map (fun rule => s!"{rule.typeName}({model.recordName rule}),") ++
    ["\x7d",
     "",
     s!"impl {model.base} \x7b",
     "pub fn accept<T>(&self, visitor: &mut dyn Visitor<T>) -> T \x7b",
     "match self \x7b"] ++
    model.rules.map (fun rule =>
      s!"{model.base}::{rule.typeName}({model.parameter}) => " ++
        s!"{model.parameter}.accept(visitor),") ++
    ["\x7d", "\x7d", "\x7d"]

def accessorLines (field : Field) : List String :=
  ["",
   s!"pub fn {field.identifier}(&self) -> &{field.accessorType} \x7b",
   s!"&self.{field.identifier}",
   "\x7d"]

/-- The expression that fills all fields from their parameters. -/
def constructorBody (rule : Rule) : String :=
  let initializers := ", ".intercalate (rule.fields.map Field.initializer)
  if initializers.isEmpty then "Self \x7b\x7d" else s!"Self \x7b {initializers} \x7d"

def recordLines (model : NodeModel) (rule : Rule) : List String :=
  let name := model.recordName rule
  let parameters :=
    ", ".intercalate (rule.fields.map fun field => s!"{field.parameter}: {field.type}")
  ["#[derive(Debug, Clone, PartialEq)]", s!"pub struct {name} \x7b"] ++
    rule.fields.map (fun field => s!"{field.identifier}: {field.type},") ++
    ["\x7d",
     "",
     s!"impl {name} \x7b",
     s!"pub fn new({parameters}) -> Self \x7b",
     constructorBody rule,
     "\x7d"] ++
    rule.fields.flatMap accessorLines ++
    ["",
     "pub fn accept<T>(&self, visitor: &mut dyn Visitor<T>) -> T \x7b",
     s!"visitor.{model.visitMethod rule}(self)",
     "\x7d",
     "\x7d",
     "",
     s!"impl From<{name}> for {model.base} \x7b",
     s!"fn from({model.parameter}: {name}) -> Self \x7b",
     s!"{model.base}::{rule.typeName}({model.parameter})",
     "\x7d",
     "\x7d"]

/-- All lines of a node model, without their indentation. -/
def lines (model : NodeModel) : List String :=
  ["// Generated by ast_generator, do not modify."] ++
    model.uses.map (fun path => s!"use {path};") ++
    [""] ++ model.visitorLines ++
    [""] ++ model.sumLines ++
    model.rules.flatMap (fun rule => "" :: model.recordLines rule)

/-- The code of a node model. It depends on nothing but the grammar. -/
def toText (model : NodeModel) : String :=
  layout model.lines

end NodeModel

/-- The code for a grammar in lines. -/
def define (base : String) (uses lines : List String) : Except GrammarError String :=
  (NodeModel.ofLines base uses lines).map NodeModel.toText

end Reckon.Schema
