import Reckon.Cursor
import Reckon.Token

/-!
# Dividing a source text

A source text is a sequence of pieces: tokens, blanks, comments, and what cannot
be read. Which piece comes next is decided by its first character, or by the
first two, and every piece has at least one character, so that the text is
divided without a gap.

The number of block comments that are open at once is a natural number here, where a
program has a count of 32 bits that overflows. `Proofs/Token/Depth.lean` bounds the
texts that this makes a difference to, and `Proofs/Token/Scanner.lean` has the count.
-/

namespace Reckon

inductive Piece where
  | token (kind : Kind) (lexeme : List Char) (literal : Option Value)
  | blank (character : Char)
  | lineComment (text : List Char)
  | blockComment (text : List Char)
  | unexpected (character : Char)
  | openString (text : List Char)
  | openComment (text : List Char)

namespace Piece

def text : Piece → List Char
  | .token _ lexeme _ => lexeme
  | .blank character => [character]
  | .lineComment text => text
  | .blockComment text => text
  | .unexpected character => [character]
  | .openString text => text
  | .openComment text => text

/-- The characters that a word may begin with: the letters of ASCII and the
underscore. -/
def startsWord (character : Char) : Bool :=
  character.isAlpha || character == '_'

/-- The characters that a word may go on with. -/
def continuesWord (character : Char) : Bool :=
  character.isAlphanum || character == '_'

/-- A mark of one character, or the longer mark that it forms with an equals
sign. -/
def orEqual (single withEqual : Kind) (first : Char) : List Char → Piece
  | '=' :: _ => .token withEqual [first, '='] none
  | _ => .token single [first] none

/-- The rest of a block comment up to the mark that closes it, or nothing if it
is never closed. Comments inside it are closed first; `depth` of them are open, and there
is no limit to that. -/
def closeComment : (depth : Nat) → List Char → Option (List Char)
  | _, [] => none
  | 0, '*' :: '/' :: _ => some ['*', '/']
  | depth + 1, '*' :: '/' :: rest => (closeComment depth rest).map ('*' :: '/' :: ·)
  | depth, '/' :: '*' :: rest => (closeComment (depth + 1) rest).map ('/' :: '*' :: ·)
  | depth, character :: rest => (closeComment depth rest).map (character :: ·)

/-- A comment up to the end of its line or block, or else a slash. -/
def afterSlash : List Char → Piece
  | '/' :: rest => .lineComment ('/' :: '/' :: rest.takeWhile (· != '\n'))
  | '*' :: rest =>
      match closeComment 0 rest with
      | some body => .blockComment ('/' :: '*' :: body)
      | none => .openComment ('/' :: '*' :: rest)
  | _ => .token .slash ['/'] none

/-- The text of a string between its quotes; nothing in it has a meaning of its
own. -/
def afterQuote (rest : List Char) : Piece :=
  let content := rest.takeWhile (· != '"')
  if content.length = rest.length then .openString ('"' :: content)
  else .token .string ('"' :: (content ++ ['"'])) (some (.text (String.ofList content)))

/-- Digits, and more digits after a point. A point without a digit behind it is
not part of the number. -/
def numeral (first : Char) (rest : List Char) : Piece :=
  let whole := first :: rest.takeWhile Char.isDigit
  let fraction :=
    match rest.dropWhile Char.isDigit with
    | '.' :: digits => digits.takeWhile Char.isDigit
    | _ => []
  let lexeme := if fraction.isEmpty then whole else whole ++ '.' :: fraction
  .token .number lexeme (some (.number (Decimal.ofDigits whole fraction).toFloat))

/-- A reserved word, or else an identifier. -/
def word (first : Char) (rest : List Char) : Piece :=
  let lexeme := first :: rest.takeWhile continuesWord
  match Keyword.ofSpelling? (String.ofList lexeme) with
  | some keyword => .token (.keyword keyword) lexeme none
  | none => .token .identifier lexeme none

/-- The piece that a text begins with. -/
def read (first : Char) (rest : List Char) : Piece :=
  match first with
  | '(' => .token .leftParen [first] none
  | ')' => .token .rightParen [first] none
  | '\x7b' => .token .leftBrace [first] none
  | '\x7d' => .token .rightBrace [first] none
  | ',' => .token .comma [first] none
  | '.' => .token .dot [first] none
  | '-' => .token .minus [first] none
  | '+' => .token .plus [first] none
  | ';' => .token .semicolon [first] none
  | '*' => .token .star [first] none
  | '!' => orEqual .bang .bangEqual first rest
  | '=' => orEqual .equal .equalEqual first rest
  | '<' => orEqual .less .lessEqual first rest
  | '>' => orEqual .greater .greaterEqual first rest
  | '/' => afterSlash rest
  | '"' => afterQuote rest
  | ' ' | '\r' | '\t' | '\n' => .blank first
  | _ =>
      if first.isDigit then numeral first rest
      else if startsWord first then word first rest
      else .unexpected first

end Piece

/-!
## Tokens of a source text

A cursor walks over a text piece by piece. Tokens keep the line that they begin
on, blanks and comments are dropped, and every piece that cannot be read gives
one diagnostic. A mark for the end of the text follows the last token.
-/

/-- The pieces that a cursor has before it, each with the cursor at its start. -/
def Cursor.pieces (cursor : Cursor) : List (Cursor × Piece) :=
  match equal : cursor.rest with
  | [] => []
  | first :: rest =>
      let piece := Piece.read first rest
      (cursor, piece) :: (cursor.skip.advance (piece.text.length - 1)).pieces
termination_by cursor.rest.length
decreasing_by
  simp only [Cursor.advance_rest, Cursor.skip_rest, equal, List.tail_cons, List.length_drop,
    List.length_cons]
  omega

def Piece.token? (start : Cursor) : Piece → Option Token
  | .token kind lexeme literal => some ⟨kind, String.ofList lexeme, literal, start.line⟩
  | _ => none

/-- What is wrong with a piece. A string that is never closed is missed at the
end of the text, a comment where it begins. -/
def Piece.diagnostic? (start : Cursor) : Piece → Option Diagnostic
  | .unexpected character =>
      some ⟨.lexical, start.line, .unspecified,
        "Unexpected character: " ++ String.singleton character⟩
  | .openString text =>
      some ⟨.lexical, (start.advance text.length).line, .unspecified,
        "Unterminated string."⟩
  | .openComment _ =>
      some ⟨.lexical, start.line, .unspecified, "Unterminated block comment."⟩
  | _ => none

/-- The tokens of a text, and what could not be read. -/
structure Scan where
  tokens : List Token
  diagnostics : List Diagnostic

def Scan.ofSource (source : String) : Scan :=
  let start := Cursor.start source
  let pieces := start.pieces
  { tokens :=
      pieces.filterMap (fun located => located.2.token? located.1) ++
        [Token.endAt (start.advance start.rest.length).line]
    diagnostics := pieces.filterMap fun located => located.2.diagnostic? located.1 }

end Reckon
