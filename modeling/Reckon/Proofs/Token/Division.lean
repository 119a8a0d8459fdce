import Reckon.Proofs.Cursor.Consumed
import Reckon.Proofs.Token.Comment
import Reckon.Proofs.Token.Lexeme

/-!
# The division of a text

Every text is divided into pieces without a gap. This module says of each class of
pieces which texts belong to it, and proves that the scan of a text leaves nothing
out: each piece is a token, is reported, or is a blank or a comment.
-/

namespace Reckon

namespace Piece

/-- The characters that the marks of the language begin with, and the strings. -/
def marks : List Char :=
  ['(', ')', '\x7b', '\x7d', ',', '.', '-', '+', ';', '*', '!', '=', '<', '>', '/', '"']

/-- A piece is what its class says it is, with the text `after` it. A line comment
goes on up to the end of its line, and what is never closed up to the end of the
text. -/
inductive Fits : Piece → (after : List Char) → Prop where
  | token {kind : Kind} {lexeme : List Char} {literal : Option Value} {after : List Char} :
      Lexeme kind lexeme literal → Fits (.token kind lexeme literal) after
  | blank {character : Char} {after : List Char} :
      character ∈ blanks → Fits (.blank character) after
  | lineComment {body after : List Char} :
      '\n' ∉ body → (∀ character ∈ after.head?, character = '\n') →
      Fits (.lineComment ('/' :: '/' :: body)) after
  | blockComment {body after : List Char} :
      ClosesComment body → Fits (.blockComment ('/' :: '*' :: body)) after
  | unexpected {character : Char} {after : List Char} :
      character ∉ blanks → character ∉ marks → ¬character.isDigit →
      ¬character.isAlpha → character ≠ '_' → Fits (.unexpected character) after
  | openString {content : List Char} :
      '"' ∉ content → Fits (.openString ('"' :: content)) []
  | openComment {body : List Char} :
      (∀ closed, ClosesComment closed → ¬closed <+: body) →
      Fits (.openComment ('/' :: '*' :: body)) []

/-- Consecutive pieces of a text, none of which is empty. -/
inductive Divides : List Char → List Piece → Prop where
  | nil : Divides [] []
  | cons {piece : Piece} {after : List Char} {pieces : List Piece} :
      piece.text ≠ [] → piece.Fits after → Divides after pieces →
      Divides (piece.text ++ after) (piece :: pieces)

/-- The token that a piece is written for, without its line. -/
def written? : Piece → Option Token
  | .token kind lexeme literal => some ⟨kind, String.ofList lexeme, literal, 0⟩
  | _ => none

/-- The message for a piece that cannot be read. -/
def complaint? : Piece → Option String
  | .unexpected character => some ("Unexpected character: " ++ String.singleton character)
  | .openString _ => some "Unterminated string."
  | .openComment _ => some "Unterminated block comment."
  | _ => none

/-! ## What is read fits -/

/-- The text ahead begins with a piece that fits there. -/
def Begins (piece : Piece) (text : List Char) : Prop :=
  ∃ after, text = piece.text ++ after ∧ piece.Fits after

theorem Begins.mark {kind : Kind} {first : Char} (rest : List Char)
    (spelled : Lexeme kind [first] none) :
    Begins (.token kind [first] none) (first :: rest) :=
  ⟨rest, rfl, .token spelled⟩

theorem Begins.orEqual {single withEqual : Kind} {first : Char} (rest : List Char)
    (short : Lexeme single [first] none) (long : Lexeme withEqual [first, '='] none) :
    Begins (orEqual single withEqual first rest) (first :: rest) := by
  unfold Piece.orEqual
  split
  next rest => exact ⟨rest, rfl, .token long⟩
  next => exact .mark _ short

theorem Begins.afterSlash (rest : List Char) :
    Begins (afterSlash rest) ('/' :: rest) := by
  unfold Piece.afterSlash
  split
  next rest =>
      refine ⟨rest.dropWhile (· != '\n'), ?_, .lineComment ?_ ?_⟩
      · simp [Piece.text]
      · exact fun member => absurd (List.mem_takeWhile_imp member) (by decide)
      · simpa using Text.head?_dropWhile (· != '\n') rest
  next rest =>
      cases found : closeComment 0 rest with
      | some body =>
          obtain ⟨closes, after, rfl⟩ := closeComment_eq_some_iff.mp found
          exact ⟨after, rfl, .blockComment closes⟩
      | none =>
          exact ⟨[], by simp [Piece.text], .openComment (closeComment_eq_none_iff.mp found)⟩
  next => exact .mark rest (@Lexeme.fixed .slash "/" rfl)

theorem Begins.afterQuote (rest : List Char) :
    Begins (afterQuote rest) ('"' :: rest) := by
  have unquoted : '"' ∉ rest.takeWhile (· != '"') :=
    fun member => absurd (List.mem_takeWhile_imp member) (by decide)
  have whole := List.takeWhile_append_dropWhile (p := (· != '"')) (l := rest)
  have stops := Text.head?_dropWhile (· != '"') rest
  unfold Piece.afterQuote
  cases dropped : rest.dropWhile (· != '"') with
  | nil =>
      rw [dropped, List.append_nil] at whole
      rw [if_pos (by rw [whole])]
      refine ⟨[], ?_, .openString unquoted⟩
      simp [Piece.text, whole]
  | cons quote after =>
      rw [dropped] at whole stops
      obtain rfl : quote = '"' := by simpa using stops
      have shorter : (rest.takeWhile (· != '"')).length ≠ rest.length := by
        intro equal
        simpa [equal] using congrArg List.length whole
      rw [if_neg shorter]
      refine ⟨after, ?_, .token (.string unquoted)⟩
      simpa [Piece.text] using whole.symm

theorem Begins.numeral {first : Char} (rest : List Char) (digit : first.isDigit) :
    Begins (numeral first rest) (first :: rest) := by
  have digits : ∀ character ∈ first :: rest.takeWhile Char.isDigit, character.isDigit :=
    List.forall_mem_cons.mpr ⟨digit, fun _ => List.mem_takeWhile_imp⟩
  have whole := List.takeWhile_append_dropWhile (p := Char.isDigit) (l := rest)
  have short : Begins
      (.token .number (first :: rest.takeWhile Char.isDigit) (some (.number
        (Decimal.ofDigits (first :: rest.takeWhile Char.isDigit) []).toFloat)))
      (first :: rest) :=
    ⟨rest.dropWhile Char.isDigit, by simp [Piece.text],
      .token (.whole (List.cons_ne_nil _ _) digits)⟩
  unfold Piece.numeral
  split
  next behind dropped =>
      cases empty : (behind.takeWhile Char.isDigit).isEmpty with
      | true =>
          rw [List.isEmpty_iff] at empty
          simpa only [empty, List.isEmpty_nil, if_true] using short
      | false =>
          have nonempty : behind.takeWhile Char.isDigit ≠ [] :=
            List.isEmpty_eq_false_iff.mp empty
          simp only [empty, if_false, Bool.false_eq_true]
          have fractionDigits : ∀ character ∈ behind.takeWhile Char.isDigit,
              character.isDigit := fun _ => List.mem_takeWhile_imp
          refine ⟨behind.dropWhile Char.isDigit, ?_,
            .token (.fraction (List.cons_ne_nil _ _) digits nonempty fractionDigits)⟩
          rw [dropped] at whole
          simpa [Piece.text] using whole.symm
  next => exact short

theorem spelling_of_ofSpelling? {text : String} {keyword : Keyword}
    (found : Keyword.ofSpelling? text = some keyword) : keyword.spelling = text := by
  simpa using List.find?_some found

theorem Begins.word {first : Char} (rest : List Char) (starts : startsWord first) :
    Begins (word first rest) (first :: rest) := by
  have whole : first :: rest = (first :: rest.takeWhile continuesWord) ++
      rest.dropWhile continuesWord := by simp
  simp only [Piece.word]
  cases found : Keyword.ofSpelling? (String.ofList (first :: rest.takeWhile continuesWord)) with
  | some keyword =>
      have spelled : keyword.spelling.toList = first :: rest.takeWhile continuesWord := by
        rw [spelling_of_ofSpelling? found, String.toList_ofList]
      have lexeme : Lexeme (.keyword keyword) keyword.spelling.toList none := .fixed rfl
      exact ⟨_, whole, .token (spelled ▸ lexeme)⟩
  | none =>
      have continues : ∀ character ∈ rest.takeWhile continuesWord,
          character.isAlphanum ∨ character = '_' :=
        fun _ member => continuesWord_iff.mp (List.mem_takeWhile_imp member)
      refine ⟨_, whole, .token (.identifier (startsWord_iff.mp starts) continues ?_)⟩
      intro keyword equal
      rw [← equal, String.ofList_toList, ofSpelling?_spelling] at found
      cases found

theorem read_begins (first : Char) (rest : List Char) :
    Begins (read first rest) (first :: rest) := by
  unfold Piece.read
  split
  next => exact .mark rest (@Lexeme.fixed .leftParen "(" rfl)
  next => exact .mark rest (@Lexeme.fixed .rightParen ")" rfl)
  next => exact .mark rest (@Lexeme.fixed .leftBrace "\x7b" rfl)
  next => exact .mark rest (@Lexeme.fixed .rightBrace "\x7d" rfl)
  next => exact .mark rest (@Lexeme.fixed .comma "," rfl)
  next => exact .mark rest (@Lexeme.fixed .dot "." rfl)
  next => exact .mark rest (@Lexeme.fixed .minus "-" rfl)
  next => exact .mark rest (@Lexeme.fixed .plus "+" rfl)
  next => exact .mark rest (@Lexeme.fixed .semicolon ";" rfl)
  next => exact .mark rest (@Lexeme.fixed .star "*" rfl)
  next =>
      exact .orEqual rest (@Lexeme.fixed .bang "!" rfl) (@Lexeme.fixed .bangEqual "!=" rfl)
  next =>
      exact .orEqual rest (@Lexeme.fixed .equal "=" rfl) (@Lexeme.fixed .equalEqual "==" rfl)
  next =>
      exact .orEqual rest (@Lexeme.fixed .less "<" rfl) (@Lexeme.fixed .lessEqual "<=" rfl)
  next =>
      exact .orEqual rest (@Lexeme.fixed .greater ">" rfl)
        (@Lexeme.fixed .greaterEqual ">=" rfl)
  next => exact .afterSlash rest
  next => exact .afterQuote rest
  iterate 4 next => exact ⟨rest, rfl, .blank (by decide)⟩
  next =>
      split
      next digit => exact .numeral rest digit
      next noDigit =>
        split
        next starts => exact .word rest starts
        next noWord =>
          rw [startsWord_iff, not_or] at noWord
          refine ⟨rest, rfl, .unexpected ?_ ?_ noDigit noWord.1 noWord.2⟩
          · simp_all [blanks]
          · simp_all [marks]

/-! ## What fits is read -/

theorem read_unexpected {character : Char} {rest : List Char} (noBlank : character ∉ blanks)
    (noMark : character ∉ marks) (noDigit : ¬character.isDigit)
    (noWord : ¬startsWord character) : read character rest = .unexpected character := by
  unfold Piece.read
  split <;> first
    | exact absurd (by decide) noMark
    | exact absurd (by decide) noBlank
    | rw [if_neg noDigit, if_neg noWord]

/-- The same is read in front of two texts if every reader that may be asked says the same. -/
theorem read_congr {first : Char} {rest rest' : List Char}
    (numerals : numeral first rest' = numeral first rest)
    (words : word first rest' = word first rest)
    (longer : ∀ single withEqual,
      orEqual single withEqual first rest' = orEqual single withEqual first rest)
    (slash : first = '/' → afterSlash rest' = afterSlash rest)
    (quote : first = '"' → afterQuote rest' = afterQuote rest) :
    read first rest' = read first rest := by
  by_cases digit : first.isDigit
  · rw [read_of_isDigit digit, read_of_isDigit digit, numerals]
  · by_cases starts : startsWord first
    · rw [read_of_startsWord starts, read_of_startsWord starts, words]
    · by_cases blank : first ∈ blanks
      · simp only [blanks, List.mem_cons, List.not_mem_nil, or_false] at blank
        rcases blank with rfl | rfl | rfl | rfl <;> rfl
      · by_cases mark : first ∈ marks
        · simp only [marks, List.mem_cons, List.not_mem_nil, or_false] at mark
          rcases mark with rfl | rfl | rfl | rfl | rfl | rfl | rfl | rfl | rfl | rfl | rfl | rfl |
            rfl | rfl | rfl | rfl
          iterate 10 next => rfl
          iterate 4 next => exact longer _ _
          next => exact slash rfl
          next => exact quote rfl
        · rw [read_unexpected blank mark digit starts, read_unexpected blank mark digit starts]

/-- A piece is read where it fits. Behind a token there has to be a blank, for a longer
token might begin there as well. -/
theorem Fits.read {piece : Piece} {after : List Char} (fits : piece.Fits after)
    (apart : piece.written?.isSome → Apart after) :
    ∃ first rest, piece.text = first :: rest ∧ Piece.read first (rest ++ after) = piece := by
  cases fits with
  | token lexeme => exact lexeme.read (apart rfl)
  | @blank character _ member =>
      refine ⟨character, [], rfl, ?_⟩
      simp only [blanks, List.mem_cons, List.not_mem_nil, or_false] at member
      rcases member with rfl | rfl | rfl | rfl <;> rfl
  | @lineComment body _ oneLine ends =>
      refine ⟨'/', '/' :: body, rfl, ?_⟩
      have taken := (Text.span_exact after (Text.bne_of_notMem oneLine) (by simpa using ends)).1
      change Piece.lineComment ('/' :: '/' :: (body ++ after).takeWhile (· != '\n')) = _
      rw [taken]
  | @blockComment body _ closes =>
      refine ⟨'/', '*' :: body, rfl, ?_⟩
      have found := (closes.closeComment after).1
      simp only [Piece.read, Piece.afterSlash, List.cons_append, found]
  | @unexpected character _ noBlank noMark noDigit noLetter noUnderscore =>
      refine ⟨character, [], rfl, read_unexpected noBlank noMark noDigit ?_⟩
      simp [startsWord_iff, noLetter, noUnderscore]
  | @openString content unquoted =>
      refine ⟨'"', content, rfl, ?_⟩
      have taken := (Text.span_exact [] (Text.bne_of_notMem unquoted) (by simp)).1
      rw [List.append_nil] at taken ⊢
      simp only [Piece.read, Piece.afterQuote, taken, if_true]
  | @openComment body unclosed =>
      refine ⟨'/', '*' :: body, rfl, ?_⟩
      have notFound := closeComment_eq_none_iff.mpr unclosed
      simp only [Piece.read, Piece.afterSlash, List.append_nil, notFound]

theorem Fits.atEnd {piece : Piece} {after : List Char} (fits : piece.Fits after) :
    piece.Fits [] := by
  cases fits with
  | token lexeme => exact .token lexeme
  | blank member => exact .blank member
  | lineComment oneLine _ => exact .lineComment oneLine (by simp)
  | blockComment closes => exact .blockComment closes
  | unexpected noBlank noMark noDigit noLetter noUnderscore =>
      exact .unexpected noBlank noMark noDigit noLetter noUnderscore
  | openString unquoted => exact .openString unquoted
  | openComment unclosed => exact .openComment unclosed

/-- A text belongs to one class at most, and is one piece of it. -/
theorem Fits.unique {piece other : Piece} {after after' : List Char}
    (fits : piece.Fits after) (fitsOther : other.Fits after')
    (equal : piece.text = other.text) : piece = other := by
  have apart : Apart [] := by simp [Apart]
  obtain ⟨first, rest, text, read⟩ := fits.atEnd.read fun _ => apart
  obtain ⟨first', rest', text', read'⟩ := fitsOther.atEnd.read fun _ => apart
  obtain ⟨rfl, rfl⟩ : first = first' ∧ rest = rest' := by
    simpa [text, text'] using equal
  exact read.symm.trans read'

theorem Fits.text_ne_nil {piece : Piece} {after : List Char} (fits : piece.Fits after) :
    piece.text ≠ [] := by
  obtain ⟨first, rest, text, -⟩ := fits.atEnd.read fun _ => by simp [Apart]
  exact text ▸ List.cons_ne_nil first rest

theorem Divides.flatMap_text {text : List Char} {pieces : List Piece}
    (divides : Divides text pieces) : pieces.flatMap Piece.text = text := by
  induction divides with
  | nil => rfl
  | cons _ _ _ ih => rw [List.flatMap_cons, ih]

theorem Divides.fits {text : List Char} {pieces : List Piece}
    (divides : Divides text pieces) : ∀ piece ∈ pieces, ∃ after, piece.Fits after := by
  induction divides with
  | nil => simp
  | cons _ fits _ ih => exact List.forall_mem_cons.mpr ⟨⟨_, fits⟩, ih⟩

/-- Where a comment is opened that is not closed, some token is read or something is wrong. -/
theorem Divides.not_silent {rest : List Char} {pieces : List Piece}
    (unclosed : ∀ body, ClosesComment body → ¬body <+: rest)
    (divides : Divides ('/' :: '*' :: rest) pieces) (unwritten : pieces.filterMap written? = []) :
    pieces.filterMap complaint? ≠ [] := by
  generalize same : '/' :: '*' :: rest = text at divides
  cases divides with
  | nil => cases same
  | cons _ fits _ =>
      cases fits with
      | token => cases unwritten
      | blank isBlank =>
          cases same
          exact absurd isBlank (by decide)
      | lineComment => cases same
      | blockComment closes =>
          cases same
          exact absurd (List.prefix_append _ _) (unclosed _ closes)
      | unexpected | openString | openComment => exact List.cons_ne_nil _ _

end Piece

theorem Lexeme.unique {kind kind' : Kind} {text : List Char} {literal literal' : Option Value}
    (one : Lexeme kind text literal) (other : Lexeme kind' text literal') :
    kind = kind' ∧ literal = literal' := by
  have fits : (Piece.token kind text literal).Fits [] := .token one
  have same := fits.unique (.token other : (Piece.token kind' text literal').Fits []) rfl
  injection same with kinds _ literals
  exact ⟨kinds, literals⟩

/-! ## The pieces before a cursor -/

theorem Cursor.pieces_of_nil {cursor : Cursor} (ends : cursor.rest = []) :
    cursor.pieces = [] := by
  unfold Cursor.pieces
  split
  next => rfl
  next ahead => rw [ends] at ahead; cases ahead

/-- The first piece before a cursor is the one that is read there, and the others are
those behind it. -/
theorem Cursor.pieces_of_cons {cursor : Cursor} {first : Char} {rest : List Char}
    (ahead : cursor.rest = first :: rest) :
    cursor.pieces = (cursor, Piece.read first rest) ::
      (cursor.advance (Piece.read first rest).text.length).pieces := by
  obtain ⟨after, -, fits⟩ := Piece.read_begins first rest
  have positive := List.length_pos_iff.mpr fits.text_ne_nil
  rw [Cursor.pieces]
  split
  next ends => rw [ahead] at ends; cases ends
  next first' rest' ahead' =>
      rw [ahead] at ahead'
      cases ahead'
      rw [← Nat.sub_one_add_one (Nat.ne_of_gt positive), Cursor.advance]

theorem Cursor.Consumed.read {cursor : Cursor} {before : List Char} {first : Char}
    {rest : List Char} (consumed : cursor.Consumed before) (ahead : cursor.rest = first :: rest) :
    let next := cursor.advance (Piece.read first rest).text.length
    next.Consumed (before ++ (Piece.read first rest).text) ∧
      next.rest.length < cursor.rest.length := by
  obtain ⟨after, split, fits⟩ := Piece.read_begins first rest
  have positive := List.length_pos_iff.mpr fits.text_ne_nil
  have split := ahead.trans split
  refine ⟨consumed.advance split, ?_⟩
  rw [advance_rest, split, List.drop_left, List.length_append]
  omega

theorem Cursor.pieces_divide (cursor : Cursor) :
    Piece.Divides cursor.rest (cursor.pieces.map Prod.snd) := by
  cases ahead : cursor.rest with
  | nil =>
      rw [pieces_of_nil ahead]
      exact .nil
  | cons first rest =>
      obtain ⟨after, equal, fits⟩ := Piece.read_begins first rest
      rw [pieces_of_cons ahead, equal]
      have next : (cursor.advance (Piece.read first rest).text.length).rest = after :=
        Cursor.advance_rest_of_append (ahead.trans equal)
      have divides := pieces_divide (cursor.advance (Piece.read first rest).text.length)
      rw [next] at divides
      exact .cons fits.text_ne_nil fits divides
termination_by cursor.rest.length
decreasing_by
  have positive := List.length_pos_iff.mpr fits.text_ne_nil
  rw [next, ahead, equal, List.length_append]
  omega

/-! ## The scan of a text -/

theorem Piece.token?_map_unlined (start : Cursor) (piece : Piece) :
    (piece.token? start).map Token.unlined = piece.written? := by
  cases piece <;> rfl

theorem Piece.diagnostic?_map_message (start : Cursor) (piece : Piece) :
    (piece.diagnostic? start).map Diagnostic.message = piece.complaint? := by
  cases piece <;> rfl

theorem Piece.diagnostic?_lexical {start : Cursor} {piece : Piece} {diagnostic : Diagnostic}
    (complains : piece.diagnostic? start = some diagnostic) :
    diagnostic.stage = .lexical ∧ diagnostic.location = .unspecified := by
  cases piece <;> cases complains <;> exact ⟨rfl, rfl⟩

theorem Scan.tokens_unlined (source : String) :
    (Scan.ofSource source).tokens.map Token.unlined =
      ((Cursor.start source).pieces.map Prod.snd).filterMap Piece.written? ++
        [Token.endAt 0] := by
  simp only [Scan.ofSource, List.map_append, List.map_filterMap, List.filterMap_map,
    Function.comp_def, Piece.token?_map_unlined]
  rfl

theorem Scan.diagnostics_message (source : String) :
    (Scan.ofSource source).diagnostics.map Diagnostic.message =
      ((Cursor.start source).pieces.map Prod.snd).filterMap Piece.complaint? := by
  simp only [Scan.ofSource, List.map_filterMap, List.filterMap_map, Function.comp_def,
    Piece.diagnostic?_map_message]

/-- A complaint about a text is about its characters, and does not point to a place. -/
theorem Scan.diagnostics_lexical {source : String} {diagnostic : Diagnostic}
    (member : diagnostic ∈ (Scan.ofSource source).diagnostics) :
    diagnostic.stage = .lexical ∧ diagnostic.location = .unspecified := by
  obtain ⟨located, _, complains⟩ := List.mem_filterMap.mp member
  exact Piece.diagnostic?_lexical complains

/-- What a scan has to give of a text that is divided into pieces: the tokens among
them and one mark of the end, and a complaint about each that cannot be read. -/
structure Scan.Accounts (scan : Scan) (pieces : List Piece) : Prop where
  tokens : scan.tokens.map Token.unlined = pieces.filterMap Piece.written? ++ [Token.endAt 0]
  oneEnd : scan.tokens.countP (·.kind == .eof) = 1
  complaints : scan.diagnostics.map Diagnostic.message = pieces.filterMap Piece.complaint?
  lexical : ∀ diagnostic ∈ scan.diagnostics,
    diagnostic.stage = .lexical ∧ diagnostic.location = .unspecified

/-- Every text is divided into pieces of one class each without a gap, and its scan
accounts for all of them. -/
theorem Scan.ofSource_accounts (source : String) :
    ∃ pieces, Piece.Divides source.toList pieces ∧
      pieces.flatMap Piece.text = source.toList ∧
      (∀ piece ∈ pieces, ∀ other after, other.Fits after → other.text = piece.text →
        other = piece) ∧
      (Scan.ofSource source).Accounts pieces := by
  have divides := (Cursor.start source).pieces_divide
  refine ⟨_, divides, divides.flatMap_text, ?_, ?_⟩
  · intro piece member other after fitsOther equal
    obtain ⟨_, fits⟩ := divides.fits piece member
    exact fitsOther.unique fits equal
  · have noEnd : (((Cursor.start source).pieces.map Prod.snd).filterMap
        Piece.written?).countP (·.kind == .eof) = 0 := by
      rw [List.countP_eq_zero]
      intro token member
      obtain ⟨piece, member, written⟩ := List.mem_filterMap.mp member
      obtain ⟨after, fits⟩ := divides.fits piece member
      cases fits with
      | token lexeme =>
          cases written
          simpa using lexeme.kind_ne_eof
      | _ => cases written
    have counted := congrArg (List.countP (·.kind == .eof)) (tokens_unlined source)
    rw [List.countP_map, List.countP_append, noEnd] at counted
    exact ⟨tokens_unlined source, counted, diagnostics_message source,
      fun _ => diagnostics_lexical⟩

end Reckon
