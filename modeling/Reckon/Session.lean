import Reckon.Expr
import Reckon.Scan

/-!
# Reading and running

Tokens are read as an expression, and a session reads and runs one source text after the other.
-/

/-!
## Reading expressions

An expression is read from left to right in one pass over its tokens. At any
time either an operand or an operator is expected, and what has been read so far
waits on a stack: signs for their operand, left operands for their right one, and
for every open parenthesis whatever stood before it. A left operand is joined to
its right one as soon as an operator that does not bind more tightly follows.
-/

namespace Reckon

/-- How tightly a binary operator binds; nothing for a token that is no such
operator. -/
def Kind.tightness? : Kind → Option Nat
  | .bangEqual | .equalEqual => some 0
  | .greater | .greaterEqual | .less | .lessEqual => some 1
  | .minus | .plus => some 2
  | .slash | .star => some 3
  | _ => none

/-- Whether a token of a kind may stand before an operand as its sign. -/
def Kind.isSign : Kind → Bool
  | .bang | .minus => true
  | _ => false

/-- Whether a statement may begin with a token of a kind. -/
def Kind.startsStatement : Kind → Bool
  | .keyword word =>
      match word with
      | .classWord | .funWord | .varWord | .forWord | .ifWord | .whileWord
      | .printWord | .returnWord => true
      | _ => false
  | _ => false

/-- The value that a token stands for on its own. A number or string without a
literal stands for `nil`. -/
def Token.operand? (token : Token) : Option Value :=
  match token.kind with
  | .keyword .falseWord => some (.boolean false)
  | .keyword .trueWord => some (.boolean true)
  | .keyword .nilWord => some .nil
  | .number | .string => some (token.literal.getD .nil)
  | _ => none

/-- What was expected where an expression cannot go on. -/
inductive Expectation where
  | expression
  | closingParenthesis
  | endOfExpression
  deriving DecidableEq, Repr

def Expectation.message : Expectation → String
  | .expression => "Expected expression."
  | .closingParenthesis => "Expect ')' after expression."
  | .endOfExpression => "Expect end of expression."

/-- An expectation, and the token that stands where it was not met. -/
structure SyntaxError where
  expectation : Expectation
  token : Token
  deriving DecidableEq

/-- A syntax error as a diagnostic at its token. -/
def SyntaxError.diagnostic (error : SyntaxError) : Diagnostic :=
  ⟨.syntactic, error.token.line, error.token.location, error.expectation.message⟩

/-- A left operand and its operator, waiting for the right operand. -/
structure Waiting where
  left : Expr
  operator : Token
  tightness : Nat

def Waiting.join (right : Expr) (waiting : Waiting) : Expr :=
  .binary waiting.operator waiting.left right

/-- Join an operand to the left operands that bind at least as tightly as the
operator after it. The innermost left operand comes first. -/
def joinTighter (tightness : Nat) : List Waiting → Expr → List Waiting × Expr
  | [], right => ([], right)
  | waiting :: lefts, right =>
      if tightness ≤ waiting.tightness then joinTighter tightness lefts (waiting.join right)
      else (waiting :: lefts, right)

/-- Put signs before an operand, the innermost first. -/
def applySigns (signs : List Token) (operand : Expr) : Expr :=
  signs.foldl (fun operand sign => .unary sign operand) operand

/-- What stood before an open parenthesis. -/
structure Outer where
  lefts : List Waiting
  signs : List Token

/-- A place inside an expression: before an operand, or behind one. -/
inductive Place where
  | beforeOperand (lefts : List Waiting) (signs : List Token) (outers : List Outer)
  | behindOperand (lefts : List Waiting) (operand : Expr) (outers : List Outer)

/-- The place behind the next token, or what was expected instead of it. -/
def Place.step : Place → Token → Except Expectation Place
  | .beforeOperand lefts signs outers, token =>
      if token.kind.isSign then .ok (.beforeOperand lefts (token :: signs) outers)
      else if token.kind = .leftParen then
        .ok (.beforeOperand [] [] (⟨lefts, signs⟩ :: outers))
      else
        match token.operand? with
        | some value =>
            .ok (.behindOperand lefts (applySigns signs (.literal value)) outers)
        | none => .error .expression
  | .behindOperand lefts operand outers, token =>
      match token.kind.tightness?, outers with
      | some tightness, _ =>
          let (lefts, left) := joinTighter tightness lefts operand
          .ok (.beforeOperand (⟨left, token, tightness⟩ :: lefts) [] outers)
      | none, [] => .error .endOfExpression
      | none, outer :: outers =>
          if token.kind = .rightParen then
            let group := .grouping (lefts.foldl Waiting.join operand)
            .ok (.behindOperand outer.lefts (applySigns outer.signs group) outers)
          else .error .closingParenthesis

/-- The expression that ends at a place, or what was expected before the end. -/
def Place.finish : Place → Except Expectation Expr
  | .beforeOperand _ _ _ => .error .expression
  | .behindOperand lefts operand [] => .ok (lefts.foldl Waiting.join operand)
  | .behindOperand _ _ (_ :: _) => .error .closingParenthesis

/-- Go on reading from a place. The tokens end before `stop`. The result comes
with the tokens from the offending one on, or none behind a whole expression. -/
def Place.read (stop : Token) :
    Place → List Token → Except SyntaxError Expr × List Token
  | place, [] => (place.finish.mapError (⟨·, stop⟩), [])
  | place, token :: rest =>
      match place.step token with
      | .ok next => Place.read stop next rest
      | .error expectation => (.error ⟨expectation, token⟩, token :: rest)

/-- Tokens that are still to be read, and the mark of their end. -/
structure Parser where
  remaining : List Token
  stop : Token

namespace Parser

/-- Begin with a list of tokens, which ends at its first mark of an end. A list
without one ends on the line of its last token. -/
def ofTokens (tokens : List Token) : Parser where
  remaining := tokens.takeWhile (·.kind != .eof)
  stop :=
    match tokens.find? (·.kind == .eof) with
    | some stop => stop
    | none => Token.endAt ((tokens.getLast?.map (·.line)).getD 1)

/-- Read one expression, to which all remaining tokens must belong. After an
error the offending token is the next to be read. -/
def parse (parser : Parser) : Except SyntaxError Expr × Parser :=
  let (result, remaining) :=
    Place.read parser.stop (.beforeOperand [] [] []) parser.remaining
  (result, { parser with remaining })

/-- The tokens from the next statement on, of those behind a dropped one. -/
def nextStatement (dropped : Token) : List Token → List Token
  | [] => []
  | token :: rest =>
      if dropped.kind = .semicolon || token.kind.startsStatement then token :: rest
      else nextStatement token rest

/-- Drop a token, and more of them up to where a statement may begin: behind a
semicolon, or at a word that statements begin with. -/
def synchronize (parser : Parser) : Parser :=
  { parser with
    remaining :=
      match parser.remaining with
      | [] => []
      | token :: rest => nextStatement token rest }

end Parser

end Reckon

/-!
## Sessions

A source text is read and evaluated under a log. Nothing but the log is carried
from one text to the next: once it holds an error in the text of a program, no
further text is parsed until it is reset.
-/

namespace Reckon.Session

/-- Read an expression from its tokens and report what is wrong with them. -/
def parseTokens (log : Log) (tokens : List Token) : Option Expr × Log :=
  match (Parser.ofTokens tokens).parse.1 with
  | .ok expr => (some expr, log)
  | .error error => (none, log.report error.diagnostic)

/-- Read an expression. Its tokens are not looked at if the log holds an error in
the text of a program, be it of this text or of an earlier one. -/
def parse (log : Log) (source : String) : Option Expr × Log :=
  let scan := Scan.ofSource source
  let log := log.reportAll scan.diagnostics
  if log.hasError then (none, log) else parseTokens log scan.tokens

/-- Evaluate an expression and write out its value. -/
def interpret (log : Log) (expr : Expr) :
    Except MisplacedOperator (Option String × Log) :=
  match expr.eval with
  | .ok value => .ok (some value.toText, log)
  | .error (.runtime error) => .ok (none, log.report error.diagnostic)
  | .error (.misplaced operator) => .error operator

/-- Read an expression, evaluate it and write out its value. -/
def run (log : Log) (source : String) :
    Except MisplacedOperator (Option String × Log) :=
  match parse log source with
  | (none, log) => .ok (none, log)
  | (some expr, log) => interpret log expr

end Reckon.Session
