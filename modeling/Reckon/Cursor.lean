import Reckon.Text

/-!
# Cursors

A cursor is a place in a source text from which reading goes on, and only
forward. It counts lines while it moves, so whatever spans several lines needs no
bookkeeping of its own. A copy of a cursor remembers where a piece of the text
began, and two cursors in one text delimit a slice of it.
-/

namespace Reckon

/-- A place in a source text: what is still to be read, and the line it is on. -/
structure Cursor where
  source : String
  rest : List Char
  line : Nat

namespace Cursor

/-- The start of a text, on its first line. -/
def start (source : String) : Cursor where
  source := source
  rest := source.toList
  line := 1

/-- The size of a list of characters as bytes of UTF-8. -/
def byteSize (text : List Char) : Nat :=
  text.foldr (fun character size => character.utf8Size + size) 0

/-- The number of bytes read so far. -/
def offset (cursor : Cursor) : Nat :=
  byteSize cursor.source.toList - byteSize cursor.rest

/-- Two cursors are the same if they are in the same text and have the same text
before them. -/
instance : BEq Cursor where
  beq left right := left.source == right.source && left.rest == right.rest

/-- The character that would be read next. -/
def peek (cursor : Cursor) : Option Char :=
  cursor.rest.head?

/-- The character that would be read after the next. -/
def peekNext (cursor : Cursor) : Option Char :=
  cursor.rest[1]?

/-- The place behind the next character. Behind a line feed a new line begins,
and at the end of the text there is nowhere to go. -/
def skip (cursor : Cursor) : Cursor :=
  match cursor.rest with
  | [] => cursor
  | character :: rest =>
      { cursor with
        rest := rest
        line := if character = '\n' then cursor.line + 1 else cursor.line }

def next (cursor : Cursor) : Option Char × Cursor :=
  (cursor.peek, cursor.skip)

/-- The place a number of characters further on. -/
def advance (cursor : Cursor) : (count : Nat) → Cursor
  | 0 => cursor
  | count + 1 => cursor.skip.advance count

/-- Read up to a number of characters. -/
def nextMany (cursor : Cursor) (count : Nat) : List Char × Cursor :=
  (cursor.rest.take count, cursor.advance (min count cursor.rest.length))

/-- Read the next character if it is the expected one, and say whether it was. -/
def consumeIf (cursor : Cursor) (expected : Char) : Bool × Cursor :=
  if cursor.peek = some expected then (true, cursor.skip) else (false, cursor)

def consumeWhile (cursor : Cursor) (accepts : Char → Bool) : Cursor :=
  cursor.advance (cursor.rest.takeWhile accepts).length

/-- Why two cursors do not delimit a slice. -/
inductive SliceError where
  | differentSources
  | reversed
  deriving DecidableEq, Repr

/-- The text from one cursor up to a later one in the same text. -/
def sliceUntil (cursor later : Cursor) : Except SliceError String :=
  if cursor.source ≠ later.source then .error .differentSources
  else if later.offset < cursor.offset then .error .reversed
  else .ok (String.ofList
    (cursor.rest.take (cursor.rest.length - later.rest.length)))

@[simp] theorem skip_rest (cursor : Cursor) :
    cursor.skip.rest = cursor.rest.tail := by
  unfold skip
  split <;> simp_all

@[simp] theorem advance_rest (cursor : Cursor) (count : Nat) :
    (cursor.advance count).rest = cursor.rest.drop count := by
  induction count generalizing cursor with
  | zero => simp [advance]
  | succ count ih => simp [advance, ih]

/-- The line and offset of a cursor on one line. -/
def summary (cursor : Cursor) : String :=
  s!"Cursor \x7b line: Line({cursor.line}), offset: {cursor.offset} \x7d"

/-- The line and offset of a cursor and the text before it, over several lines. -/
def details (cursor : Cursor) : String :=
  let rest := Text.quote (String.ofList cursor.rest)
  s!"Cursor \x7b
    line: Line(
        {cursor.line},
    ),
    offset: {cursor.offset},
    rest: {rest},
\x7d"

end Cursor

end Reckon
