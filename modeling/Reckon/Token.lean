import Reckon.Log
import Reckon.Value

/-!
# Tokens

A token is a piece of source text that means something, with its kind, the value of a literal,
and the line that it begins on.
-/

/-!
## Kinds of tokens

The marks, literals and reserved words of the language. Some of them have no
place in an expression yet; they are read all the same.
-/

namespace Reckon

inductive Keyword where
  | andWord | classWord | elseWord | falseWord | funWord | forWord | ifWord | nilWord
  | orWord | printWord | returnWord | superWord | thisWord | trueWord | varWord
  | whileWord
  deriving DecidableEq, Repr

namespace Keyword

/-- Every reserved word once. -/
def all : List Keyword :=
  [.andWord, .classWord, .elseWord, .falseWord, .funWord, .forWord, .ifWord, .nilWord,
   .orWord, .printWord, .returnWord, .superWord, .thisWord, .trueWord, .varWord,
   .whileWord]

def spelling : Keyword → String
  | .andWord => "and"
  | .classWord => "class"
  | .elseWord => "else"
  | .falseWord => "false"
  | .funWord => "fun"
  | .forWord => "for"
  | .ifWord => "if"
  | .nilWord => "nil"
  | .orWord => "or"
  | .printWord => "print"
  | .returnWord => "return"
  | .superWord => "super"
  | .thisWord => "this"
  | .trueWord => "true"
  | .varWord => "var"
  | .whileWord => "while"

/-- The reserved word with a spelling. Upper case makes another word. -/
def ofSpelling? (text : String) : Option Keyword :=
  all.find? fun keyword => keyword.spelling == text

/-- The spelling with a capital at the front. -/
def name (keyword : Keyword) : String :=
  keyword.spelling.capitalize

end Keyword

/-- The kinds of tokens. `undefined` stands in for the reserved word of a word
that is none; no token of a text is of this kind. -/
inductive Kind where
  | undefined
  | leftParen | rightParen | leftBrace | rightBrace | comma | dot | minus | plus
  | semicolon | slash | star
  | bang | bangEqual | equal | equalEqual | greater | greaterEqual | less | lessEqual
  | identifier | string | number
  | keyword (word : Keyword)
  | eof
  deriving DecidableEq, Repr

namespace Kind

/-- The reserved word with a spelling, as a kind. -/
def ofWord (text : String) : Kind :=
  match Keyword.ofSpelling? text with
  | some word => .keyword word
  | none => .undefined

/-- What a kind is called in messages. -/
def name : Kind → String
  | .undefined => "Undefined"
  | .leftParen => "LeftParen"
  | .rightParen => "RightParen"
  | .leftBrace => "LeftBrace"
  | .rightBrace => "RightBrace"
  | .comma => "Comma"
  | .dot => "Dot"
  | .minus => "Minus"
  | .plus => "Plus"
  | .semicolon => "Semicolon"
  | .slash => "Slash"
  | .star => "Star"
  | .bang => "Bang"
  | .bangEqual => "BangEqual"
  | .equal => "Equal"
  | .equalEqual => "EqualEqual"
  | .greater => "Greater"
  | .greaterEqual => "GreaterEqual"
  | .less => "Less"
  | .lessEqual => "LessEqual"
  | .identifier => "Identifier"
  | .string => "String"
  | .number => "Number"
  | .keyword word => word.name
  | .eof => "Eof"

/-- Every kind once. -/
def all : List Kind :=
  [.undefined, .leftParen, .rightParen, .leftBrace, .rightBrace, .comma, .dot, .minus,
   .plus, .semicolon, .slash, .star, .bang, .bangEqual, .equal, .equalEqual, .greater,
   .greaterEqual, .less, .lessEqual, .identifier, .string, .number] ++
    Keyword.all.map .keyword ++ [.eof]

/-- The kind with a name. -/
def ofName? (name : String) : Option Kind :=
  all.find? fun kind => kind.name == name

/-- No two kinds share a name. -/
@[simp] theorem ofName?_name (kind : Kind) : ofName? kind.name = some kind := by
  cases kind with
  | keyword word => cases word <;> decide +kernel
  | _ => decide +kernel

end Kind

/-! ## Tokens -/

structure Token where
  kind : Kind
  lexeme : String
  literal : Option Value
  line : Nat
  deriving DecidableEq

namespace Token

/-- Tokens are equal if all their parts are; literals are compared as values of
the language. -/
instance : BEq Token where
  beq left right :=
    left.kind == right.kind && left.lexeme == right.lexeme &&
      left.literal == right.literal && left.line == right.line

/-- The token that marks the end of a text. -/
def endAt (line : Nat) : Token := ⟨.eof, "", none, line⟩

/-- How a diagnostic at a token points to it. -/
def location (token : Token) : Location :=
  match token.kind with
  | .eof => .atEnd
  | _ => .atLexeme token.lexeme

end Token

end Reckon
