import Reckon.Proofs.Token.Depth
import Reckon.Proofs.Token.Spaced

/-!
# Scanning with two cursors

A scanner remembers where a piece begins by one cursor and moves another one on through
it. What the piece is written as is sliced out of the text between the two, and what a
string contains out of that. The comments that are open are counted in 32 bits. This module
proves that no slice fails, and that the scanner gives the tokens and diagnostics of the pieces
that the text is divided into if its comments are not too deep for the count. A text that is
too deep is a panic where overflow is one. Where the count wraps around, the scanner comes to
the end of any text, but may have taken what is no comment for one.
-/

namespace Reckon

/-- The decimal of digits, or of digits, a point and more digits. -/
def Decimal.ofNumeral? (text : List Char) : Option Decimal :=
  let whole := text.takeWhile Char.isDigit
  match text.dropWhile Char.isDigit with
  | [] => some (ofDigits whole [])
  | '.' :: fraction => if fraction.all Char.isDigit then some (ofDigits whole fraction) else none
  | _ => none

section Numeral

variable {digits fraction : List Char}

theorem Decimal.ofNumeral?_whole (inside : ∀ digit ∈ digits, digit.isDigit) :
    ofNumeral? digits = some (ofDigits digits []) := by
  have span := @Text.span_exact Char.isDigit digits [] inside (by simp)
  rw [List.append_nil] at span
  simp only [ofNumeral?, span]

theorem Decimal.ofNumeral?_fraction (inside : ∀ digit ∈ digits, digit.isDigit)
    (insideFraction : ∀ digit ∈ fraction, digit.isDigit) :
    ofNumeral? (digits ++ '.' :: fraction) = some (ofDigits digits fraction) := by
  have span := @Text.span_exact Char.isDigit digits ('.' :: fraction) inside (by simp)
  simp only [ofNumeral?, span, List.all_eq_true.mpr insideFraction, if_true]

end Numeral

namespace Cursor

theorem consumeIf_rest_le (cursor : Cursor) (expected : Char) :
    (cursor.consumeIf expected).2.rest.length ≤ cursor.rest.length := by
  unfold consumeIf
  split
  · rw [skip_rest, List.length_tail]
    exact Nat.sub_le _ _
  · exact Nat.le_refl _

/-- Read to the end of as many block comments as are open, and say whether it is there. -/
def closeComments (overflow : Overflow) (depth : Int32) (cursor : Cursor) :
    Checked (Bool × Cursor) :=
  match _ : cursor.peek with
  | none => pure (false, cursor)
  | some first =>
      let opened := cursor.skip.consumeIf '*'
      let closed := cursor.skip.consumeIf '/'
      if first = '/' ∧ opened.1 then do
        let depth ← overflow.increment depth
        opened.2.closeComments overflow depth
      else if first = '*' ∧ closed.1 then do
        let depth ← overflow.decrement depth
        if depth = 0 then return (true, closed.2)
        closed.2.closeComments overflow depth
      else cursor.skip.closeComments overflow depth
termination_by cursor.rest.length
decreasing_by
  all_goals
    obtain ⟨rest, ahead⟩ := List.head?_eq_some_iff.mp ‹cursor.peek = some _›
    have opened := cursor.skip.consumeIf_rest_le '*'
    have closed := cursor.skip.consumeIf_rest_le '/'
    rw [skip_rest, ahead, List.tail_cons] at opened closed
    simp only [skip_rest, ahead, List.tail_cons, List.length_cons]
    omega

end Cursor

/-- The cursors before and behind a piece, the tokens before it, and the log that what
is wrong with pieces is reported in. -/
structure Scanner where
  start : Cursor
  current : Cursor
  tokens : List Token
  log : Log

namespace Scanner

def lexeme (scanner : Scanner) : Checked (List Char) :=
  scanner.start.checkedSlice scanner.current

def error (scanner : Scanner) (line : Nat) (message : String) : Scanner :=
  { scanner with log := scanner.log.reportLexical line message }

def pushToken (scanner : Scanner) (kind : Kind) (literal : Option Value) : Checked Scanner := do
  let lexeme ← scanner.lexeme
  let token := ⟨kind, String.ofList lexeme, literal, scanner.start.line⟩
  return { scanner with tokens := scanner.tokens ++ [token] }

def orEqual (scanner : Scanner) (single withEqual : Kind) : Checked Scanner :=
  let (longer, current) := scanner.current.consumeIf '='
  { scanner with current }.pushToken (if longer then withEqual else single) none

/-- A block comment behind its opening mark. -/
def blockComment (overflow : Overflow) (scanner : Scanner) : Checked Scanner := do
  let (closed, current) ← scanner.current.closeComments overflow 1
  let scanner := { scanner with current }
  return if closed then scanner
    else scanner.error scanner.start.line "Unterminated block comment."

def afterSlash (overflow : Overflow) (scanner : Scanner) : Checked Scanner :=
  let (isLine, line) := scanner.current.consumeIf '/'
  let (isBlock, block) := scanner.current.consumeIf '*'
  if isLine then pure { scanner with current := line.consumeWhile (· != '\n') }
  else if isBlock then { scanner with current := block }.blockComment overflow
  else scanner.pushToken .slash none

/-- A string behind its opening quote. Its value stands between the quotes. -/
def afterQuote (scanner : Scanner) : Checked Scanner := do
  let (closed, current) := (scanner.current.consumeWhile (· != '"')).consumeIf '"'
  let scanner := { scanner with current }
  if closed then
    let lexeme ← scanner.lexeme
    let value ← Text.slice lexeme 1 (Cursor.byteSize lexeme - 1)
    scanner.pushToken .string (some (.text (String.ofList value)))
  else return scanner.error current.line "Unterminated string."

/-- A number behind its first digit. It is dropped if it cannot be read as one. -/
def numeral (scanner : Scanner) : Checked Scanner := do
  let whole := scanner.current.consumeWhile Char.isDigit
  let current :=
    if whole.peek = some '.' ∧ whole.peekNext.any Char.isDigit then
      whole.skip.consumeWhile Char.isDigit
    else whole
  let scanner := { scanner with current }
  let lexeme ← scanner.lexeme
  match Decimal.ofNumeral? lexeme with
  | some decimal => scanner.pushToken .number (some (.number decimal.toFloat))
  | none => return scanner

def word (scanner : Scanner) : Checked Scanner := do
  let scanner := { scanner with current := scanner.current.consumeWhile Piece.continuesWord }
  let lexeme ← scanner.lexeme
  match Kind.ofWord (String.ofList lexeme) with
  | .undefined => scanner.pushToken .identifier none
  | keyword => scanner.pushToken keyword none

/-- A piece behind its first character. -/
def piece (overflow : Overflow) (scanner : Scanner) (first : Char) : Checked Scanner :=
  match first with
  | '(' => scanner.pushToken .leftParen none
  | ')' => scanner.pushToken .rightParen none
  | '\x7b' => scanner.pushToken .leftBrace none
  | '\x7d' => scanner.pushToken .rightBrace none
  | ',' => scanner.pushToken .comma none
  | '.' => scanner.pushToken .dot none
  | '-' => scanner.pushToken .minus none
  | '+' => scanner.pushToken .plus none
  | ';' => scanner.pushToken .semicolon none
  | '*' => scanner.pushToken .star none
  | '!' => scanner.orEqual .bang .bangEqual
  | '=' => scanner.orEqual .equal .equalEqual
  | '<' => scanner.orEqual .less .lessEqual
  | '>' => scanner.orEqual .greater .greaterEqual
  | '/' => scanner.afterSlash overflow
  | '"' => scanner.afterQuote
  | ' ' | '\r' | '\t' | '\n' => pure scanner
  | _ =>
      if first.isDigit then scanner.numeral
      else if Piece.startsWord first then scanner.word
      else
        pure (scanner.error scanner.current.line
          ("Unexpected character: " ++ String.singleton first))

/-- Read all pieces up to the end of the text. Every piece is a step. -/
def pieces (overflow : Overflow) : (steps : Nat) → Scanner → Checked Scanner
  | 0, _ => Checked.unended
  | steps + 1, scanner => do
      let scanner := { scanner with start := scanner.current }
      match scanner.current.next with
      | (none, _) => return scanner
      | (some first, current) =>
          let scanner ← { scanner with current }.piece overflow first
          scanner.pieces overflow steps

/-- The tokens of a source text, under a log. There are no more pieces than characters. -/
def scan (overflow : Overflow) (log : Log) (source : String) :
    Checked (List Token × Log) := do
  let start := Cursor.start source
  let scanner ← pieces overflow (start.rest.length + 1) ⟨start, start, [], log⟩
  return (scanner.tokens ++ [Token.endAt scanner.current.line], scanner.log)

end Scanner

/-! ## Loops over block comments -/

namespace Cursor

variable {overflow : Overflow} {depth : Int32} {cursor : Cursor} {rest : List Char}

theorem closeComments_of_nil (ends : cursor.rest = []) :
    cursor.closeComments overflow depth = pure (false, cursor) := by
  rw [closeComments]
  split
  next => rfl
  next ahead => simp [peek, ends] at ahead

theorem closeComments_of_cons {first : Char} (ahead : cursor.rest = first :: rest) :
    cursor.closeComments overflow depth =
      let opened := cursor.skip.consumeIf '*'
      let closed := cursor.skip.consumeIf '/'
      if first = '/' ∧ opened.1 then do
        let depth ← overflow.increment depth
        opened.2.closeComments overflow depth
      else if first = '*' ∧ closed.1 then do
        let depth ← overflow.decrement depth
        if depth = 0 then return (true, closed.2)
        closed.2.closeComments overflow depth
      else cursor.skip.closeComments overflow depth := by
  rw [closeComments]
  split
  next ends => simp [peek, ahead] at ends
  next other ahead' =>
      obtain rfl : first = other := by simpa [peek, ahead] using ahead'
      rfl

theorem closeComments_opening (ahead : cursor.rest = '/' :: '*' :: rest) :
    cursor.closeComments overflow depth = overflow.increment depth >>= fun depth =>
      (cursor.advance 2).closeComments overflow depth := by
  have behind := skip_rest_of_cons ahead
  rw [closeComments_of_cons ahead]
  simp only [consumeIf_of_eq behind]
  rfl

theorem closeComments_closing (ahead : cursor.rest = '*' :: '/' :: rest) :
    cursor.closeComments overflow depth = overflow.decrement depth >>= fun depth =>
      if depth = 0 then pure (true, cursor.advance 2)
      else (cursor.advance 2).closeComments overflow depth := by
  have behind := skip_rest_of_cons ahead
  rw [closeComments_of_cons ahead]
  simp only [consumeIf_of_eq behind]
  rfl

theorem closeComments_character {character : Char} (ahead : cursor.rest = character :: rest)
    (noOpening : ¬['/', '*'] <+: character :: rest)
    (noClosing : ¬['*', '/'] <+: character :: rest) :
    cursor.closeComments overflow depth = cursor.skip.closeComments overflow depth := by
  have behind := skip_rest_of_cons ahead
  rw [closeComments_of_cons ahead]
  simp only [consumeIf_fst, behind, ← Piece.pair_prefix_iff, if_neg noOpening, if_neg noClosing]

/-- Where the search for the end of comments takes a cursor, and whether it finds it. -/
def closed (depth : Nat) (cursor : Cursor) : Bool × Cursor :=
  match Piece.closeComment depth cursor.rest with
  | some body => (true, cursor.advance body.length)
  | none => (false, cursor.advance cursor.rest.length)

/-- The loop over the marks of block comments finds their end where there is one, and the
end of the text otherwise, as long as it can count the comments. Its count begins with the
comment itself. -/
theorem closeComments_eq (depth : Nat) (cursor : Cursor)
    (fits : Piece.deepest depth cursor.rest < overflow.limit) :
    cursor.closeComments overflow (.ofNat (depth + 1)) = pure (cursor.closed depth) := by
  have range := overflow.limit_le
  generalize ahead : cursor.rest = text at fits
  unfold closed
  rw [ahead]
  induction depth, text using Piece.search_induction generalizing cursor with
  | nil depth => exact closeComments_of_nil ahead
  | last rest =>
      rw [closeComments_closing ahead, Overflow.decrement_ofNat overflow.limit_pos]
      rfl
  | closing depth rest ih =>
      rw [Piece.deepest] at fits
      have behind := advance_two_rest ahead
      rw [closeComments_closing ahead, Overflow.decrement_ofNat (by omega), pure_bind,
        if_neg (Overflow.ofNat_succ_ne_zero (by omega)), Piece.closeComment,
        ih _ behind (by omega)]
      cases Piece.closeComment depth rest <;> rfl
  | opening depth rest ih =>
      rw [Piece.deepest] at fits
      have least := Piece.le_deepest (depth + 1) rest
      have behind := advance_two_rest ahead
      rw [closeComments_opening ahead, Overflow.increment_ofNat (by omega), pure_bind,
        Piece.closeComment, ih _ behind fits]
      cases Piece.closeComment (depth + 1) rest <;> rfl
  | character depth first rest noOpening noClosing ih =>
      rw [Piece.deepest_character noOpening noClosing] at fits
      have behind := skip_rest_of_cons ahead
      rw [closeComments_character ahead noOpening noClosing,
        Piece.closeComment_character noOpening noClosing, ih _ behind fits]
      cases Piece.closeComment depth rest <;> rfl

/-- Where overflow is a panic, more comments than can be counted are one. -/
theorem closeComments_panics (depth : Nat) (cursor : Cursor)
    (fits : depth < Overflow.panics.limit)
    (deep : Overflow.panics.limit ≤ Piece.deepest depth cursor.rest) :
    cursor.closeComments .panics (.ofNat (depth + 1)) = throw .overflow := by
  generalize ahead : cursor.rest = text at deep
  induction depth, text using Piece.search_induction generalizing cursor with
  | nil depth =>
      rw [Piece.deepest] at deep
      omega
  | last rest =>
      rw [Piece.deepest] at deep
      omega
  | closing depth rest ih =>
      rw [Piece.deepest] at deep
      have behind := advance_two_rest ahead
      have range := Overflow.panics.limit_le
      rw [closeComments_closing ahead, Overflow.decrement_ofNat fits, pure_bind,
        if_neg (Overflow.ofNat_succ_ne_zero (by omega)),
        ih _ (by omega) behind (by omega)]
  | opening depth rest ih =>
      rw [Piece.deepest] at deep
      have behind := advance_two_rest ahead
      rw [closeComments_opening ahead]
      by_cases last : depth + 1 = Overflow.panics.limit
      · rw [last, Overflow.increment_limit, Checked.throw_bind]
      · rw [Overflow.increment_ofNat (by omega), pure_bind, ih _ (by omega) behind deep]
  | character depth first rest noOpening noClosing ih =>
      rw [Piece.deepest_character noOpening noClosing] at deep
      have behind := skip_rest_of_cons ahead
      rw [closeComments_character ahead noOpening noClosing, ih _ fits behind deep]

/-- Where the count wraps around, the loop comes to some end in any text. -/
theorem closeComments_wraps (depth : Int32) (cursor : Cursor) :
    ∃ closed count, count ≤ cursor.rest.length ∧
      cursor.closeComments .wraps depth = pure (closed, cursor.advance count) := by
  cases ahead : cursor.rest with
  | nil => exact ⟨false, 0, Nat.le_refl 0, closeComments_of_nil ahead⟩
  | cons first rest =>
      have further : ∀ steps, 0 < steps → steps ≤ rest.length + 1 → ∀ depth : Int32,
          ∃ closed count, count ≤ rest.length + 1 ∧
            (cursor.advance steps).closeComments .wraps depth =
              pure (closed, cursor.advance count) := by
        intro steps positive inside depth
        have shorter : (cursor.advance steps).rest.length = rest.length + 1 - steps := by
          rw [advance_rest, ahead, List.length_drop, List.length_cons]
        obtain ⟨closed, count, within, ends⟩ := closeComments_wraps depth (cursor.advance steps)
        exact ⟨closed, steps + count, by omega, by rw [ends, advance_add]⟩
      by_cases opening : ['/', '*'] <+: first :: rest
      · obtain ⟨rfl, tail, rfl⟩ := Piece.pair_prefix_iff.mp opening
        rw [closeComments_opening ahead, Overflow.increment_wraps, pure_bind]
        exact further 2 (by decide) (by simp) _
      by_cases closing : ['*', '/'] <+: first :: rest
      · obtain ⟨rfl, tail, rfl⟩ := Piece.pair_prefix_iff.mp closing
        rw [closeComments_closing ahead, Overflow.decrement_wraps, pure_bind]
        split
        next => exact ⟨true, 2, by simp, rfl⟩
        next => exact further 2 (by decide) (by simp) _
      rw [closeComments_character ahead opening closing]
      exact further 1 (by decide) (by simp) depth
termination_by cursor.rest.length
decreasing_by
  rw [shorter, ahead, List.length_cons]
  omega

/-- Where the count wraps around, marks that open comments may bring it back to where it was. -/
theorem closeComments_openings {depth : Int32} {count : Nat} {cursor : Cursor} {rest : List Char}
    (ahead : cursor.rest = Piece.openings count ++ rest) :
    cursor.closeComments .wraps depth =
      (cursor.advance (2 * count)).closeComments .wraps (depth + .ofNat count) := by
  induction count generalizing depth cursor with
  | zero => exact congrArg (closeComments .wraps · cursor) (Int32.add_zero depth).symm
  | succ count ih =>
      rw [Piece.openings_succ] at ahead
      have behind := advance_two_rest ahead
      rw [closeComments_opening ahead, Overflow.increment_wraps, pure_bind, ih behind,
        advance_add, Int32.add_assoc, Int32.ofNat_add, Int32.add_comm 1, Nat.mul_succ,
        Nat.add_comm 2]
      rfl

end Cursor

namespace Scanner

variable {overflow : Overflow} {scanner : Scanner} {before after rest : List Char} {first : Char}

/-- A scanner that has read the first character of a piece, behind some text. -/
structure Begun (scanner : Scanner) (before : List Char) (first : Char) (rest : List Char) :
    Prop where
  consumed : scanner.start.Consumed before
  ahead : scanner.start.rest = first :: rest
  moved : scanner.current = scanner.start.skip

theorem Begun.here (begun : scanner.Begun before first rest) : scanner.current.rest = rest := by
  rw [begun.moved, Cursor.skip_rest_of_cons begun.ahead]

/-- The scanner behind a piece. -/
def behind (scanner : Scanner) (piece : Piece) : Scanner where
  start := scanner.start
  current := scanner.start.advance piece.text.length
  tokens := scanner.tokens ++ (piece.token? scanner.start).toList
  log := scanner.log.reportAll (piece.diagnostic? scanner.start).toList

theorem lexeme_eq {lexeme : List Char} {current : Cursor}
    (consumed : scanner.start.Consumed before) (ahead : scanner.start.rest = lexeme ++ after)
    (reached : current = scanner.start.advance lexeme.length) :
    { scanner with current }.lexeme = pure lexeme := by
  rw [Scanner.lexeme, reached]
  exact consumed.checkedSlice ahead

theorem pushToken_eq {lexeme : List Char} {current : Cursor} (kind : Kind)
    (literal : Option Value) (consumed : scanner.start.Consumed before)
    (ahead : scanner.start.rest = lexeme ++ after)
    (reached : current = scanner.start.advance lexeme.length) :
    { scanner with current }.pushToken kind literal =
      pure (scanner.behind (.token kind lexeme literal)) := by
  rw [pushToken, lexeme_eq consumed ahead reached, pure_bind, behind, Piece.text, ← reached]
  rfl

theorem orEqual_eq (single withEqual : Kind) (begun : scanner.Begun before first rest) :
    scanner.orEqual single withEqual =
      pure (scanner.behind (Piece.orEqual single withEqual first rest)) := by
  have here := begun.here
  unfold Piece.orEqual
  split
  next tail =>
      rw [Scanner.orEqual, Cursor.consumeIf_of_eq here]
      exact pushToken_eq withEqual none begun.consumed begun.ahead
        (congrArg Cursor.skip begun.moved)
  next shorter =>
      rw [Scanner.orEqual, Cursor.consumeIf_of_ne (by rw [here]; exact shorter)]
      exact pushToken_eq single none begun.consumed begun.ahead begun.moved

theorem behind_silent {piece : Piece} (noToken : piece.token? scanner.start = none)
    (noDiagnostic : piece.diagnostic? scanner.start = none) :
    scanner.behind piece =
      { scanner with current := scanner.start.advance piece.text.length } := by
  simp [behind, noToken, noDiagnostic, Log.reportAll]

theorem behind_error {piece : Piece} {line : Nat} {message : String}
    (noToken : piece.token? scanner.start = none)
    (diagnostic : piece.diagnostic? scanner.start =
      some ⟨.lexical, line, .unspecified, message⟩) :
    scanner.behind piece =
      { scanner with current := scanner.start.advance piece.text.length }.error line message := by
  simp [behind, noToken, diagnostic, Log.reportAll, error, Log.reportLexical]

/-! ### Comments -/

theorem blockComment_of_closed {body : List Char} (ahead : scanner.current.rest = rest)
    (shallow : Piece.deepest 0 rest < overflow.limit)
    (found : Piece.closeComment 0 rest = some body) :
    scanner.blockComment overflow =
      pure { scanner with current := scanner.current.advance body.length } := by
  subst ahead
  have ends := Cursor.closeComments_eq 0 scanner.current shallow
  simp only [Cursor.closed, found] at ends
  exact congrArg (· >>= _) ends

theorem blockComment_of_open (ahead : scanner.current.rest = rest)
    (shallow : Piece.deepest 0 rest < overflow.limit)
    (notFound : Piece.closeComment 0 rest = none) :
    scanner.blockComment overflow =
      pure ({ scanner with current := scanner.current.advance rest.length }.error
        scanner.start.line "Unterminated block comment.") := by
  subst ahead
  have ends := Cursor.closeComments_eq 0 scanner.current shallow
  simp only [Cursor.closed, notFound] at ends
  exact congrArg (· >>= _) ends

theorem blockComment_panics
    (deep : Overflow.panics.limit ≤ Piece.deepest 0 scanner.current.rest) :
    scanner.blockComment .panics = throw .overflow :=
  congrArg (· >>= _) (Cursor.closeComments_panics 0 scanner.current Overflow.panics.limit_pos deep)

theorem blockComment_wraps (scanner : Scanner) :
    ∃ count log, count ≤ scanner.current.rest.length ∧
      scanner.blockComment .wraps =
        pure { scanner with current := scanner.current.advance count, log } := by
  obtain ⟨closed, count, within, ends⟩ := Cursor.closeComments_wraps 1 scanner.current
  rw [blockComment, ends, pure_bind]
  cases closed with
  | true => exact ⟨count, scanner.log, within, rfl⟩
  | false => exact ⟨count, _, within, rfl⟩

/-- Where the count wraps around, four billion marks that open comments and one that closes a
comment are taken for the rest of a comment. -/
theorem blockComment_openings
    (ahead : scanner.current.rest = Piece.openings (2 ^ 32) ++ ['*', '/'] ++ after) :
    scanner.blockComment .wraps = pure
      { scanner with
        current := scanner.current.advance (Piece.openings (2 ^ 32) ++ ['*', '/']).length } := by
  rw [List.append_assoc] at ahead
  have last : (scanner.current.advance (2 * 2 ^ 32)).rest = '*' :: '/' :: after := by
    rw [Cursor.advance_rest, ahead, ← Piece.length_openings, List.drop_left]
    rfl
  have same : (1 : Int32) + .ofNat (2 ^ 32) = 1 := by decide
  rw [blockComment, Cursor.closeComments_openings ahead, same,
    Cursor.closeComments_closing last, Overflow.decrement_wraps, Cursor.advance_add,
    List.length_append, Piece.length_openings]
  rfl

theorem afterSlash_of_star (here : scanner.current.rest = '*' :: rest) :
    scanner.afterSlash overflow =
      { scanner with current := scanner.current.skip }.blockComment overflow := by
  rw [Scanner.afterSlash, Cursor.consumeIf_of_ne (by simp [here]), Cursor.consumeIf_of_eq here]
  rfl

/-- A comment is read up to its end if it is not too deep, and a slash is a token. -/
theorem afterSlash_eq (begun : scanner.Begun before '/' rest)
    (shallow : ∀ tail, rest = '*' :: tail → Piece.deepest 0 tail < overflow.limit) :
    scanner.afterSlash overflow = pure (scanner.behind (Piece.afterSlash rest)) := by
  have here := begun.here
  unfold Piece.afterSlash
  split
  next tail =>
      have next := Cursor.skip_rest_of_cons here
      simp only [Scanner.afterSlash, Cursor.consumeIf_of_eq here, if_true, Cursor.consumeWhile,
        next]
      rw [behind_silent rfl rfl, begun.moved]
      rfl
  next tail =>
      have next := Cursor.skip_rest_of_cons here
      rw [afterSlash_of_star here]
      cases found : Piece.closeComment 0 tail with
      | some body =>
          rw [blockComment_of_closed next (shallow tail rfl) found, behind_silent rfl rfl,
            begun.moved]
          rfl
      | none =>
          rw [blockComment_of_open next (shallow tail rfl) found, behind_error rfl rfl,
            begun.moved]
          rfl
  next noLine noBlock =>
      rw [Scanner.afterSlash, Cursor.consumeIf_of_ne (by rw [here]; exact noLine),
        Cursor.consumeIf_of_ne (by rw [here]; exact noBlock)]
      exact pushToken_eq .slash none begun.consumed begun.ahead begun.moved

/-- What stands between two quotes is sliced out by their sizes. -/
theorem slice_quoted (content : List Char) :
    Text.slice ('"' :: (content ++ ['"'])) 1
      (Cursor.byteSize ('"' :: (content ++ ['"'])) - 1) = pure content := by
  have quote : '"'.utf8Size = 1 := by decide
  have last : Cursor.byteSize ('"' :: (content ++ ['"'])) - 1 =
      Cursor.byteSize (['"'] ++ content) := by
    simp [quote, ← Nat.add_assoc]
  rw [last]
  exact Text.slice_append ['"'] content ['"']

theorem afterQuote_eq (begun : scanner.Begun before '"' rest) :
    scanner.afterQuote = pure (scanner.behind (Piece.afterQuote rest)) := by
  have here := begun.here
  by_cases closed : '"' ∈ rest
  · obtain ⟨content, after, rfl, unquoted⟩ := List.eq_append_cons_of_mem closed
    have quote : (scanner.current.advance content.length).rest = '"' :: after :=
      Cursor.advance_rest_of_append here
    have whole : scanner.start.rest = '"' :: (content ++ ['"']) ++ after := by
      simp [begun.ahead]
    have reached : (scanner.current.advance content.length).skip =
        scanner.start.advance ('"' :: (content ++ ['"'])).length := by
      rw [begun.moved, Cursor.advance_skip, List.length_cons, List.length_append]
      rfl
    rw [Scanner.afterQuote,
      Cursor.consumeWhile_eq here (Text.bne_of_notMem unquoted) (by simp),
      Cursor.consumeIf_of_eq quote, Piece.afterQuote_eq unquoted]
    simp only [if_true]
    rw [lexeme_eq begun.consumed whole reached, pure_bind, slice_quoted, pure_bind]
    exact pushToken_eq .string _ begun.consumed whole reached
  · have unclosed : rest.takeWhile (· != '"') = rest :=
      List.takeWhile_eq_self_iff.mpr (Text.bne_of_notMem closed)
    have ends : (scanner.current.advance rest.length).rest = [] := by
      rw [Cursor.advance_rest, here, List.drop_length]
    rw [Scanner.afterQuote, Cursor.consumeWhile, here, unclosed,
      Cursor.consumeIf_of_ne (by rw [ends]; simp), Piece.afterQuote, unclosed, if_pos rfl,
      behind_error rfl rfl, begun.moved]
    rfl

section Numeral

variable {digits fraction : List Char}

theorem numeral_fraction_eq (digit : first.isDigit) (inside : ∀ digit ∈ digits, digit.isDigit)
    (nonempty : fraction ≠ []) (insideFraction : ∀ digit ∈ fraction, digit.isDigit)
    (outside : ∀ character ∈ after.head?, character.isDigit = false)
    (begun : scanner.Begun before first (digits ++ '.' :: (fraction ++ after))) :
    scanner.numeral = pure (scanner.behind
      (.token .number (first :: (digits ++ '.' :: fraction))
        (some (.number (Decimal.ofDigits (first :: digits) fraction).toFloat)))) := by
  have here := begun.here
  have allDigits : ∀ digit ∈ first :: digits, digit.isDigit :=
    List.forall_mem_cons.mpr ⟨digit, inside⟩
  have next : (scanner.current.advance digits.length).rest = '.' :: (fraction ++ after) :=
    Cursor.advance_rest_of_append here
  have point : (scanner.current.advance digits.length).peek = some '.' ∧
      (scanner.current.advance digits.length).peekNext.any Char.isDigit := by
    obtain ⟨second, others, rfl⟩ := List.exists_cons_of_ne_nil nonempty
    rw [Cursor.peek, Cursor.peekNext, next]
    exact ⟨rfl, insideFraction second List.mem_cons_self⟩
  have behind := Cursor.skip_rest_of_cons next
  have whole : scanner.start.rest = first :: (digits ++ '.' :: fraction) ++ after := by
    simp [begun.ahead]
  have reached : (scanner.current.advance digits.length).skip.advance fraction.length =
      scanner.start.advance (first :: (digits ++ '.' :: fraction)).length := by
    have length : (first :: (digits ++ '.' :: fraction)).length =
        digits.length + 1 + fraction.length + 1 := by
      simp only [List.length_append, List.length_cons]
      omega
    rw [begun.moved, length, Cursor.advance_skip, Cursor.advance_add, Cursor.advance]
  have read : Decimal.ofNumeral? (first :: (digits ++ '.' :: fraction)) =
      some (Decimal.ofDigits (first :: digits) fraction) :=
    Decimal.ofNumeral?_fraction allDigits insideFraction
  rw [Scanner.numeral, Cursor.consumeWhile_eq here inside (by simp)]
  simp only [if_pos point, Cursor.consumeWhile_eq behind insideFraction outside]
  rw [lexeme_eq begun.consumed whole reached, pure_bind, read]
  exact pushToken_eq .number _ begun.consumed whole reached

theorem numeral_whole_eq (digit : first.isDigit) (inside : ∀ digit ∈ digits, digit.isDigit)
    (outside : ∀ character ∈ after.head?, character.isDigit = false)
    (noFraction : ∀ digit tail, after = '.' :: digit :: tail → digit.isDigit = false)
    (begun : scanner.Begun before first (digits ++ after)) :
    scanner.numeral = pure (scanner.behind
      (.token .number (first :: digits)
        (some (.number (Decimal.ofDigits (first :: digits) []).toFloat)))) := by
  have here := begun.here
  have next : (scanner.current.advance digits.length).rest = after :=
    Cursor.advance_rest_of_append here
  have noPoint : ¬((scanner.current.advance digits.length).peek = some '.' ∧
      (scanner.current.advance digits.length).peekNext.any Char.isDigit) := by
    rw [Cursor.peek, Cursor.peekNext, next]
    rintro ⟨head, second⟩
    obtain ⟨behind, rfl⟩ := List.head?_eq_some_iff.mp head
    cases behind with
    | nil => cases second
    | cons digit tail => exact Bool.eq_false_iff.mp (noFraction digit tail rfl) second
  have reached : scanner.current.advance digits.length =
      scanner.start.advance (first :: digits).length :=
    congrArg (Cursor.advance · digits.length) begun.moved
  have read := Decimal.ofNumeral?_whole (List.forall_mem_cons.mpr ⟨digit, inside⟩)
  rw [Scanner.numeral, Cursor.consumeWhile_eq here inside outside]
  simp only [if_neg noPoint]
  rw [lexeme_eq begun.consumed begun.ahead reached, pure_bind, read]
  exact pushToken_eq .number _ begun.consumed begun.ahead reached

end Numeral

theorem numeral_eq (digit : first.isDigit) (begun : scanner.Begun before first rest) :
    scanner.numeral = pure (scanner.behind (Piece.numeral first rest)) := by
  obtain ⟨digits, after, rfl, inside, outside⟩ := Text.exists_span Char.isDigit rest
  by_cases point : ∃ second tail, after = '.' :: second :: tail ∧ second.isDigit
  · obtain ⟨second, tail, rfl, isDigit⟩ := point
    obtain ⟨others, after, rfl, insideOthers, outside⟩ := Text.exists_span Char.isDigit tail
    have nonempty : second :: others ≠ [] := List.cons_ne_nil _ _
    have insideFraction : ∀ digit ∈ second :: others, digit.isDigit :=
      List.forall_mem_cons.mpr ⟨isDigit, insideOthers⟩
    have piece : Piece.numeral first (digits ++ '.' :: ((second :: others) ++ after)) = _ :=
      Piece.numeral_fraction inside nonempty insideFraction outside
    rw [List.cons_append] at piece
    rw [piece]
    exact numeral_fraction_eq digit inside nonempty insideFraction outside begun
  · have noFraction : ∀ second tail, after = '.' :: second :: tail → second.isDigit = false := by
      intro second tail equal
      exact Bool.eq_false_iff.mpr fun isDigit => point ⟨second, tail, equal, isDigit⟩
    rw [Piece.numeral_whole inside outside noFraction]
    exact numeral_whole_eq digit inside outside noFraction begun

theorem word_eq (begun : scanner.Begun before first rest) :
    scanner.word = pure (scanner.behind (Piece.word first rest)) := by
  have whole : scanner.start.rest = (first :: rest.takeWhile Piece.continuesWord) ++
      rest.dropWhile Piece.continuesWord := by
    simp [begun.ahead]
  have reached : scanner.current.consumeWhile Piece.continuesWord =
      scanner.start.advance (first :: rest.takeWhile Piece.continuesWord).length := by
    rw [Cursor.consumeWhile, begun.here, begun.moved]
    rfl
  rw [Scanner.word, lexeme_eq begun.consumed whole reached, pure_bind, Piece.word, Kind.ofWord]
  cases Keyword.ofSpelling? (String.ofList (first :: rest.takeWhile Piece.continuesWord)) with
  | some keyword => exact pushToken_eq (.keyword keyword) none begun.consumed whole reached
  | none => exact pushToken_eq .identifier none begun.consumed whole reached

/-- A piece is read as the text divides if it is not too deep, and no slice fails. -/
theorem piece_eq (begun : scanner.Begun before first rest)
    (shallow : (Piece.read first rest).nesting ≤ overflow.limit) :
    scanner.piece overflow first = pure (scanner.behind (Piece.read first rest)) := by
  have mark : ∀ kind, scanner.pushToken kind none =
      pure (scanner.behind (.token kind [first] none)) :=
    fun kind => pushToken_eq kind none begun.consumed begun.ahead begun.moved
  have blank : scanner.behind (.blank first) = scanner := by
    rw [behind_silent rfl rfl]
    change { scanner with current := scanner.start.skip } = scanner
    rw [← begun.moved]
  unfold Piece.read
  split
  iterate 10 next => exact mark _
  iterate 4 next => exact orEqual_eq _ _ begun
  next =>
      refine afterSlash_eq begun ?_
      rintro tail rfl
      rw [Piece.nesting_read_comment] at shallow
      exact shallow
  next => exact afterQuote_eq begun
  iterate 4 next => exact congrArg pure blank.symm
  next =>
      unfold Scanner.piece
      split <;> try contradiction
      split
      next digit => exact numeral_eq digit begun
      next =>
        split
        next => exact word_eq begun
        next =>
          have line : scanner.current.line = scanner.start.line := by
            rw [begun.moved]
            exact Cursor.skip_line begun.ahead ‹first = '\n' → False›
          rw [behind_error rfl rfl, line]
          change _ = pure ({ scanner with current := scanner.start.skip }.error _ _)
          rw [← begun.moved]

theorem piece_panics (begun : scanner.Begun before first rest)
    (deep : Overflow.panics.limit < (Piece.read first rest).nesting) :
    scanner.piece .panics first = throw .overflow := by
  obtain ⟨rfl, tail, rfl⟩ := Piece.comment_of_nesting_pos (Nat.zero_lt_of_lt deep)
  rw [Piece.nesting_read_comment] at deep
  have next := Cursor.skip_rest_of_cons begun.here
  change scanner.afterSlash .panics = _
  rw [afterSlash_of_star begun.here]
  exact blockComment_panics (by rw [next]; exact Nat.le_of_lt_succ deep)

/-- Where the count wraps around, a piece that is too deep is still read to some end and is no
token. -/
theorem piece_wraps (begun : scanner.Begun before first rest) :
    ∃ count log, 0 < count ∧ count ≤ rest.length + 1 ∧
      scanner.piece .wraps first = pure
        { scanner with
          current := scanner.start.advance count
          tokens := scanner.tokens ++ ((Piece.read first rest).token? scanner.start).toList
          log } := by
  by_cases shallow : (Piece.read first rest).nesting ≤ Overflow.wraps.limit
  · obtain ⟨after, split, fits⟩ := Piece.read_begins first rest
    have positive := List.length_pos_iff.mpr fits.text_ne_nil
    have inside := congrArg List.length split
    rw [List.length_cons, List.length_append] at inside
    exact ⟨_, _, positive, by omega, piece_eq begun shallow⟩
  · obtain ⟨rfl, tail, rfl⟩ := Piece.comment_of_nesting_pos
      (Nat.zero_lt_of_lt (Nat.lt_of_not_le shallow))
    have noToken : (Piece.read '/' ('*' :: tail)).token? scanner.start = none := by
      simp only [Piece.read, Piece.afterSlash]
      split <;> rfl
    obtain ⟨count, log, inside, ends⟩ :=
      { scanner with current := scanner.current.skip }.blockComment_wraps
    rw [Cursor.skip_rest_of_cons begun.here] at inside
    refine ⟨count + 2, log, by omega, by rw [List.length_cons]; omega, ?_⟩
    change scanner.afterSlash .wraps = _
    rw [afterSlash_of_star begun.here, ends, noToken, begun.moved]
    simp [Cursor.advance]

/-! ### All pieces -/

/-- The scanner behind the first character of its next piece. -/
def atNext (scanner : Scanner) : Scanner :=
  { scanner with start := scanner.current, current := scanner.current.skip }

theorem pieces_of_nil {steps : Nat} (ends : scanner.current.rest = []) :
    scanner.pieces overflow (steps + 1) = pure { scanner with start := scanner.current } := by
  rw [pieces, Cursor.next_of_nil ends]

theorem pieces_of_cons {steps : Nat} (ahead : scanner.current.rest = first :: rest) :
    scanner.pieces overflow (steps + 1) =
      scanner.atNext.piece overflow first >>= fun scanner => scanner.pieces overflow steps := by
  rw [pieces, Cursor.next_of_cons ahead]
  rfl

theorem pieces_of_comment {steps : Nat} (ahead : scanner.current.rest = '/' :: '*' :: rest) :
    scanner.pieces overflow (steps + 1) =
      { scanner.atNext with current := scanner.current.advance 2 }.blockComment overflow >>=
        fun scanner => scanner.pieces overflow steps := by
  have star : scanner.atNext.current.rest = '*' :: rest := Cursor.skip_rest_of_cons ahead
  rw [pieces_of_cons ahead]
  change scanner.atNext.afterSlash overflow >>= _ = _
  rw [afterSlash_of_star star]
  rfl

theorem pieces_of_last_comment {steps : Nat} {log : Log}
    (ahead : scanner.current.rest = '/' :: '*' :: rest)
    (read : { scanner.atNext with current := scanner.current.advance 2 }.blockComment overflow =
      pure { scanner.atNext with
        current := (scanner.current.advance 2).advance rest.length
        log }) :
    let ends := scanner.current.advance scanner.current.rest.length
    scanner.pieces overflow (steps + 2) =
      pure { scanner with start := ends, current := ends, log } := by
  intro ends
  have last : (scanner.current.advance 2).advance rest.length = ends := by
    simp only [ends, ahead, Cursor.advance_add, List.length_cons, Nat.add_comm 2]
  have nothing : ends.rest = [] := by rw [Cursor.advance_rest, List.drop_length]
  rw [last] at read
  rw [pieces_of_comment ahead, read, pure_bind]
  exact pieces_of_nil nothing

theorem atNext_begun (consumed : scanner.current.Consumed before)
    (ahead : scanner.current.rest = first :: rest) : scanner.atNext.Begun before first rest :=
  ⟨consumed, ahead, rfl⟩

/-- The scanner behind all pieces before its moving cursor. -/
def atEnd (scanner : Scanner) : Scanner where
  start := scanner.current.advance scanner.current.rest.length
  current := scanner.current.advance scanner.current.rest.length
  tokens := scanner.tokens ++
    scanner.current.pieces.filterMap fun located => located.2.token? located.1
  log := scanner.log.reportAll
    (scanner.current.pieces.filterMap fun located => located.2.diagnostic? located.1)

theorem atEnd_of_nil (ends : scanner.current.rest = []) :
    scanner.atEnd = { scanner with start := scanner.current } := by
  simp [atEnd, ends, Cursor.pieces_of_nil ends, Cursor.advance, Log.reportAll]

theorem atEnd_of_cons (ahead : scanner.current.rest = first :: rest) :
    scanner.atEnd = (scanner.atNext.behind (Piece.read first rest)).atEnd := by
  obtain ⟨after, equal, -⟩ := Piece.read_begins first rest
  have split := ahead.trans equal
  have ends : (scanner.current.advance (Piece.read first rest).text.length).advance
      after.length = scanner.current.advance scanner.current.rest.length := by
    rw [Cursor.advance_add, split, List.length_append]
  simp only [atEnd, behind, atNext, Cursor.advance_rest, split, List.drop_left, ends,
    Cursor.pieces_of_cons ahead, List.filterMap_cons]
  cases (Piece.read first rest).token? scanner.current <;>
    cases (Piece.read first rest).diagnostic? scanner.current <;>
    simp [Log.reportAll]

/-- The pieces before the moving cursor are read one after the other up to the end if none of
them is too deep. -/
theorem pieces_eq {steps : Nat} (scanner : Scanner) {before : List Char}
    (consumed : scanner.current.Consumed before) (enough : scanner.current.rest.length < steps)
    (shallow : scanner.current.Shallow overflow) :
    scanner.pieces overflow steps = pure scanner.atEnd := by
  induction steps generalizing scanner before with
  | zero => exact absurd enough (Nat.not_lt_zero _)
  | succ steps ih =>
      cases ahead : scanner.current.rest with
      | nil => rw [pieces_of_nil ahead, atEnd_of_nil ahead]
      | cons first rest =>
          obtain ⟨behind, shorter⟩ := consumed.read ahead
          obtain ⟨shallow, others⟩ := (Cursor.shallow_of_cons ahead).mp shallow
          rw [pieces_of_cons ahead, piece_eq (atNext_begun consumed ahead) shallow, pure_bind,
            atEnd_of_cons ahead]
          exact ih _ behind (Nat.lt_of_lt_of_le shorter (Nat.le_of_lt_succ enough)) others

/-- Where overflow is a panic, a piece that is too deep is one, wherever it stands. -/
theorem pieces_panics {steps : Nat} (scanner : Scanner) {before : List Char}
    (consumed : scanner.current.Consumed before) (enough : scanner.current.rest.length < steps)
    (deep : ¬scanner.current.Shallow .panics) :
    scanner.pieces .panics steps = throw .overflow := by
  induction steps generalizing scanner before with
  | zero => exact absurd enough (Nat.not_lt_zero _)
  | succ steps ih =>
      cases ahead : scanner.current.rest with
      | nil => exact absurd (Cursor.shallow_of_nil ahead) deep
      | cons first rest =>
          obtain ⟨behind, shorter⟩ := consumed.read ahead
          have begun := atNext_begun consumed ahead
          rw [Cursor.shallow_of_cons ahead, not_and_or, Nat.not_le] at deep
          rw [pieces_of_cons ahead]
          by_cases here : Overflow.panics.limit < (Piece.read first rest).nesting
          · rw [piece_panics begun here, Checked.throw_bind]
          · rw [piece_eq begun (Nat.le_of_not_lt here), pure_bind]
            exact ih _ behind (Nat.lt_of_lt_of_le shorter (Nat.le_of_lt_succ enough))
              (deep.resolve_left here)

/-- Where the count wraps around, the end of any text is reached, and only well-formed tokens are
read on the way. -/
theorem pieces_wraps {steps : Nat} (scanner : Scanner) {before : List Char}
    (consumed : scanner.current.Consumed before) (enough : scanner.current.rest.length < steps) :
    ∃ words later, scanner.pieces .wraps steps = pure later ∧
      later.tokens = scanner.tokens ++ words ∧ ∀ word ∈ words, word.WellFormed := by
  induction steps generalizing scanner before with
  | zero => exact absurd enough (Nat.not_lt_zero _)
  | succ steps ih =>
      cases ahead : scanner.current.rest with
      | nil =>
          refine ⟨[], _, pieces_of_nil ahead, (List.append_nil _).symm, List.forall_mem_nil _⟩
      | cons first rest =>
          obtain ⟨_, _, fits⟩ := Piece.read_begins first rest
          obtain ⟨count, log, positive, inside, read⟩ := piece_wraps (atNext_begun consumed ahead)
          rw [ahead, List.length_cons] at enough
          obtain ⟨before', consumed'⟩ := consumed.exists_advance count
          have fewer : (scanner.current.advance count).rest.length < steps := by
            rw [Cursor.advance_rest, ahead, List.length_drop, List.length_cons]
            omega
          obtain ⟨words, later, ends, tokens, wellFormed⟩ := ih
            { scanner.atNext with
              current := scanner.current.advance count
              tokens := scanner.tokens ++
                ((Piece.read first rest).token? scanner.current).toList
              log } consumed' fewer
          refine ⟨_, later, ?_, tokens.trans (List.append_assoc _ _ _), ?_⟩
          · rw [pieces_of_cons ahead, read, pure_bind]
            exact ends
          · intro word member
            rcases List.mem_append.mp member with isToken | member
            · exact fits.wellFormed (Option.mem_toList.mp isToken)
            · exact wellFormed word member

/-- Scanning a source text slices out nothing that there is not. If no comment in it is too
deep, it ends and gives the tokens of the text and what is wrong with it. -/
theorem scan_eq (log : Log) {source : String} (shallow : (Cursor.start source).Shallow overflow) :
    scan overflow log source =
      pure ((Scan.ofSource source).tokens,
        log.reportAll (Scan.ofSource source).diagnostics) := by
  have read := @pieces_eq overflow ((Cursor.start source).rest.length + 1)
    ⟨Cursor.start source, Cursor.start source, [], log⟩ [] (Cursor.start_consumed source)
    (Nat.lt_succ_self _) shallow
  rw [scan, read, pure_bind]
  rfl

theorem scan_panics (log : Log) {source : String}
    (deep : ¬(Cursor.start source).Shallow .panics) :
    scan .panics log source = throw .overflow := by
  have read := @pieces_panics ((Cursor.start source).rest.length + 1)
    ⟨Cursor.start source, Cursor.start source, [], log⟩ [] (Cursor.start_consumed source)
    (Nat.lt_succ_self _) deep
  rw [scan, read, Checked.throw_bind]

theorem scan_wraps (log : Log) (source : String) :
    ∃ words line later, scan .wraps log source = pure (words ++ [Token.endAt line], later) ∧
      ∀ word ∈ words, word.WellFormed := by
  obtain ⟨words, later, read, tokens, wellFormed⟩ :=
    @pieces_wraps ((Cursor.start source).rest.length + 1)
      ⟨Cursor.start source, Cursor.start source, [], log⟩ [] (Cursor.start_consumed source)
      (Nat.lt_succ_self _)
  refine ⟨words, later.current.line, later.log, ?_, wellFormed⟩
  rw [scan, read, pure_bind, tokens]
  rfl

theorem tokens_of_scan {log later : Log} {source : String} {tokens : List Token}
    (scanned : scan overflow log source = pure (tokens, later)) :
    ∃ words line, tokens = words ++ [Token.endAt line] ∧ ∀ word ∈ words, word.WellFormed := by
  by_cases shallow : (Cursor.start source).Shallow overflow
  · rw [scan_eq log shallow, Checked.pure_inj] at scanned
    cases scanned
    exact Scan.tokens_concat source
  · cases overflow with
    | panics =>
        rw [scan_panics log shallow] at scanned
        cases scanned
    | wraps =>
        obtain ⟨words, line, _, ends, wellFormed⟩ := scan_wraps log source
        rw [ends, Checked.pure_inj] at scanned
        cases scanned
        exact ⟨words, line, rfl, wellFormed⟩

/-! ## The account of a scan -/

/-- Every text whose comments are not too deep is divided into pieces of one class each without
a gap, and what is scanned and reported accounts for all of them. -/
theorem scan_accounts (log : Log) {source : String}
    (shallow : (Cursor.start source).Shallow overflow) :
    ∃ tokens diagnostics pieces,
      scan overflow log source = pure (tokens, log.reportAll diagnostics) ∧
        Piece.Divides source.toList pieces ∧
        pieces.flatMap Piece.text = source.toList ∧
        (∀ piece ∈ pieces, ∀ other after, other.Fits after → other.text = piece.text →
          other = piece) ∧
        (Scan.mk tokens diagnostics).Accounts pieces := by
  obtain ⟨pieces, divides, whole, unique, accounts⟩ := Scan.ofSource_accounts source
  exact ⟨_, _, pieces, scan_eq log shallow, divides, whole, unique, accounts⟩

theorem scan_accounts_nested :
    let source := "1/*/*\n*/*/\"$"
    (Cursor.start source).Shallow .panics ∧
      ∃ tokens diagnostics pieces,
        scan .panics .empty source = pure (tokens, Log.empty.reportAll diagnostics) ∧
          Piece.Divides source.toList pieces ∧
          pieces.flatMap Piece.text = source.toList ∧
          (∀ piece ∈ pieces, ∀ other after, other.Fits after → other.text = piece.text →
            other = piece) ∧
          (Scan.mk tokens diagnostics).Accounts pieces := by
  intro source
  have shallow : (Cursor.start source).Shallow .panics :=
    Cursor.shallow_of_length _ _ (by decide)
  exact ⟨shallow, scan_accounts .empty shallow⟩

/-- Where the count wraps around, four billion marks that open comments and one that closes a
comment are left out in silence. -/
theorem scan_openings (log : Log) {source : String}
    (text : source.toList = '/' :: '*' :: (Piece.openings (2 ^ 32) ++ ['*', '/'])) :
    scan .wraps log source =
      pure ([Token.endAt ((Cursor.start source).advance source.toList.length).line], log) := by
  have behind : ((Cursor.start source).advance 2).rest =
      Piece.openings (2 ^ 32) ++ ['*', '/'] ++ [] := by
    rw [Cursor.advance_rest, List.append_nil]
    exact congrArg (List.drop 2) text
  obtain ⟨steps, length⟩ : ∃ steps, source.toList.length = steps + 1 := by
    rw [text, List.length_cons]
    exact ⟨_, rfl⟩
  have read := @pieces_of_last_comment .wraps
    ⟨Cursor.start source, Cursor.start source, [], log⟩ _ steps log text
    (blockComment_openings behind)
  have begins : (Cursor.start source).rest = source.toList := rfl
  rw [scan, begins, length, read, ← length]
  rfl

/-- A comment that is too deep and not closed is a panic, or it is lost without a report. -/
theorem not_scan_accounts :
    let source := String.ofList ('/' :: '*' :: (Piece.openings (2 ^ 32) ++ ['*', '/']))
    (∀ log, scan .panics log source = throw .overflow) ∧
      ∃ tokens, (∀ log, scan .wraps log source = pure (tokens, log)) ∧
        ∀ pieces, Piece.Divides source.toList pieces → ¬(Scan.mk tokens []).Accounts pieces := by
  intro source
  have text : source.toList = '/' :: '*' :: (Piece.openings (2 ^ 32) ++ ['*', '/']) :=
    String.toList_ofList
  clear_value source
  have deep : Overflow.panics.limit ≤
      Piece.deepest 0 (Piece.openings (2 ^ 32) ++ ['*', '/']) :=
    Nat.le_trans (by decide) (Piece.le_deepest_openings (2 ^ 32) _)
  have unclosed := Piece.closeComment_eq_none_iff.mp
    (Piece.closeComment_openings_eq_none (by decide : 0 < 2 ^ 32))
  refine ⟨fun log => scan_panics log (Cursor.not_shallow text deep), _,
    fun log => scan_openings log text, fun pieces divides accounts => ?_⟩
  have unwritten : pieces.filterMap Piece.written? = [] :=
    (List.append_cancel_right accounts.tokens).symm
  rw [text] at divides
  exact divides.not_silent unclosed unwritten accounts.complaints.symm

end Scanner

end Reckon
