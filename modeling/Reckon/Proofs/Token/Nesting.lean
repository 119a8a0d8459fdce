import Reckon.Proofs.Token.Onward
import Reckon.Proofs.Token.Scanner

/-!
# Nested comments

A block comment is derived by a grammar of its own: it has items between its marks, each of
which is a comment again or a character. The scanner does not follow the grammar but counts
the marks that are open. This module proves that it comes to the end of the one comment that
can be derived, and that it comes to the end of the text where there is none, as long as the
count has room for all marks that are open at once.
-/

namespace Reckon

/-! ## The grammar of comments -/

/-- The parts that block comments are made of. -/
inductive CommentPart where
  | comment
  | item
  | items
  deriving DecidableEq, Repr

namespace CommentPart

/-- The rules for the parts of block comments, each with the text behind it:

    comment → "/*" item* "*/"
    item    → comment | character

A character is no item if it forms one of the marks with the character behind it. -/
inductive Derives : CommentPart → (text after : List Char) → Prop where
  | comment {items after : List Char} :
      Derives .items items ('*' :: '/' :: after) →
      Derives .comment ('/' :: '*' :: (items ++ ['*', '/'])) after
  | nested {text after : List Char} : Derives .comment text after → Derives .item text after
  | character {character : Char} {after : List Char} :
      ¬['/', '*'] <+: character :: after → ¬['*', '/'] <+: character :: after →
      Derives .item [character] after
  | nil {after : List Char} : Derives .items [] after
  | cons {first rest after : List Char} :
      Derives .item first (rest ++ after) → Derives .items rest after →
      Derives .items (first ++ rest) after

variable {part : CommentPart} {text body after : List Char}

theorem Derives.closes_append (derives : part.Derives text after)
    (closes : Piece.ClosesComment body) (reaches : body <+: after) :
    Piece.ClosesComment (text ++ body) := by
  induction derives generalizing body with
  | @comment items after _ ih =>
      have inner := ih .mark (List.prefix_append ['*', '/'] after)
      exact .comment inner closes
  | nested _ ih => exact ih closes reaches
  | @character character after noOpening noClosing =>
      have within : character :: body <+: character :: after :=
        List.cons_prefix_cons.mpr ⟨rfl, reaches⟩
      exact .character (fun mark => noOpening (mark.trans within))
        (fun mark => noClosing (mark.trans within)) closes
  | nil => exact closes
  | cons _ _ firstIH restIH =>
      rw [List.append_assoc]
      exact firstIH (restIH closes reaches) ((List.prefix_append_right_inj _).mpr reaches)

theorem pair_prefix_append_iff {first second character : Char} (nonempty : body ≠ [])
    (rest : List Char) :
    [first, second] <+: character :: (body ++ rest) ↔ [first, second] <+: character :: body := by
  obtain ⟨next, tail, rfl⟩ := List.exists_cons_of_ne_nil nonempty
  simp [List.cons_prefix_cons]

/-- What closes a comment consists of items and the mark at their end, whatever stands behind
that. -/
theorem exists_items_of_closes (closes : Piece.ClosesComment body) :
    ∃ inside, body = inside ++ ['*', '/'] ∧
      ∀ after, items.Derives inside ('*' :: '/' :: after) := by
  induction closes with
  | mark => exact ⟨[], rfl, fun after => .nil⟩
  | comment _ _ innerIH restIH =>
      obtain ⟨inside, rfl, insideDerives⟩ := innerIH
      obtain ⟨others, rfl, othersDerive⟩ := restIH
      refine ⟨'/' :: '*' :: (inside ++ ['*', '/']) ++ others, by simp, fun after => ?_⟩
      exact .cons (.nested (.comment (insideDerives _))) (othersDerive after)
  | @character character body noOpening noClosing closes ih =>
      obtain ⟨inside, same, derives⟩ := ih
      refine ⟨character :: inside, by rw [same]; rfl, fun after => ?_⟩
      have whole : inside ++ '*' :: '/' :: after = body ++ after := by
        rw [same, List.append_assoc]
        rfl
      have one : item.Derives [character] (inside ++ '*' :: '/' :: after) := by
        rw [whole]
        exact .character ((pair_prefix_append_iff closes.ne_nil after).not.mpr noOpening)
          ((pair_prefix_append_iff closes.ne_nil after).not.mpr noClosing)
      exact .cons one (derives after)

/-- A comment is derived just if what stands behind its first mark closes it. -/
theorem derives_comment_iff :
    comment.Derives ('/' :: '*' :: body) after ↔ Piece.ClosesComment body := by
  constructor
  · intro derives
    cases derives with
    | comment inside => exact inside.closes_append .mark (List.prefix_append ['*', '/'] after)
  · intro closes
    obtain ⟨inside, rfl, derives⟩ := exists_items_of_closes closes
    exact .comment (derives after)

end CommentPart

/-- A text begins, behind a mark that opens a comment, with the rest of a comment. -/
structure ClosedBy (rest body after : List Char) : Prop where
  split : rest = body ++ after
  derives : CommentPart.comment.Derives ('/' :: '*' :: body) after

variable {rest body after : List Char}

theorem closeComment_eq_some_iff_closedBy :
    Piece.closeComment 0 rest = some body ↔ ∃ after, ClosedBy rest body after := by
  rw [Piece.closeComment_eq_some_iff]
  constructor
  · rintro ⟨closes, after, rfl⟩
    exact ⟨after, rfl, CommentPart.derives_comment_iff.mpr closes⟩
  · rintro ⟨after, rfl, derives⟩
    exact ⟨CommentPart.derives_comment_iff.mp derives, after, rfl⟩

theorem closeComment_eq_none_iff_closedBy :
    Piece.closeComment 0 rest = none ↔ ∀ body after, ¬ClosedBy rest body after := by
  rw [Option.eq_none_iff_forall_ne_some]
  exact forall_congr' fun body => by
    rw [ne_eq, closeComment_eq_some_iff_closedBy, not_exists]

theorem ClosedBy.unique {other left : List Char} (closed : ClosedBy rest body after)
    (again : ClosedBy rest other left) : other = body ∧ left = after := by
  have found := closeComment_eq_some_iff_closedBy.mpr ⟨after, closed⟩
  rw [closeComment_eq_some_iff_closedBy.mpr ⟨left, again⟩] at found
  cases found
  exact ⟨rfl, List.append_cancel_left (again.split.symm.trans closed.split)⟩

/-! ## The count of open comments -/

namespace Cursor

theorem advance_line {cursor : Cursor} {piece : List Char} (ahead : cursor.rest = piece ++ after) :
    (cursor.advance piece.length).line = cursor.line + piece.count '\n' := by
  induction piece generalizing cursor with
  | nil => rfl
  | cons character piece ih =>
      have behind : cursor.skip.rest = piece ++ after := skip_rest_of_cons ahead
      rw [List.length_cons, advance, ih behind, skip, ahead, List.count_cons]
      simp only [List.cons_append, beq_iff_eq]
      split <;> omega

end Cursor

namespace Scanner

variable {overflow : Overflow} {scanner : Scanner}

/-- A scanner goes on behind a comment. It reports nothing, and the line feeds of the comment
are counted. -/
def GoesOn (overflow : Overflow) (scanner : Scanner) (body after : List Char) : Prop :=
  ∃ current, current.rest = after ∧
    current.line = scanner.current.line + body.count '\n' ∧
    ∀ steps, scanner.pieces overflow (steps + 1) =
      { scanner with start := scanner.current, current }.pieces overflow steps

/-- A scanner comes to the end of the text in a comment, which it reports where that begins, and
reads no more tokens. -/
def BreaksOff (overflow : Overflow) (scanner : Scanner) : Prop :=
  ∃ current, current.rest = [] ∧
    ∀ steps, scanner.pieces overflow (steps + 2) = pure
      { scanner with
        start := current
        current
        log := scanner.log.reportLexical scanner.current.line "Unterminated block comment." }

/-- A scanner behind the mark that opens a comment goes on behind the comment that can be
derived there. -/
theorem blockComment_of_closedBy (shallow : Piece.deepest 0 rest < overflow.limit)
    (closed : ClosedBy rest body after) (ahead : scanner.current.rest = rest) :
    ∃ current, scanner.blockComment overflow = pure { scanner with current } ∧
      current.rest = after ∧ current.line = scanner.current.line + body.count '\n' := by
  have found := closeComment_eq_some_iff_closedBy.mpr ⟨after, closed⟩
  have split := ahead.trans closed.split
  exact ⟨scanner.current.advance body.length, blockComment_of_closed ahead shallow found,
    Cursor.advance_rest_of_append split, Cursor.advance_line split⟩

/-- Where none can be derived it goes to the end of the text and reports that on the line where
the mark is. -/
theorem blockComment_of_unclosed (shallow : Piece.deepest 0 rest < overflow.limit)
    (unclosed : ∀ body after, ¬ClosedBy rest body after) (ahead : scanner.current.rest = rest) :
    scanner.blockComment overflow = pure
      { scanner with
        current := scanner.current.advance rest.length
        log := scanner.log.reportLexical scanner.start.line "Unterminated block comment." } :=
  blockComment_of_open ahead shallow (closeComment_eq_none_iff_closedBy.mpr unclosed)

theorem goesOn_of_closedBy (shallow : Piece.deepest 0 rest < overflow.limit)
    (closed : ClosedBy rest body after) (ahead : scanner.current.rest = '/' :: '*' :: rest) :
    scanner.GoesOn overflow body after := by
  have behind := Cursor.advance_two_rest ahead
  have line : (scanner.current.advance 2).line = scanner.current.line :=
    @Cursor.advance_line rest scanner.current ['/', '*'] ahead
  obtain ⟨current, read, ends, below⟩ := @blockComment_of_closedBy _ _ _ overflow
    { scanner.atNext with current := scanner.current.advance 2 } shallow closed behind
  refine ⟨current, ends, by rw [below, line], fun steps => ?_⟩
  rw [pieces_of_comment ahead, read, pure_bind]
  rfl

theorem breaksOff_of_unclosed (shallow : Piece.deepest 0 rest < overflow.limit)
    (unclosed : ∀ body after, ¬ClosedBy rest body after)
    (ahead : scanner.current.rest = '/' :: '*' :: rest) : scanner.BreaksOff overflow := by
  have behind := Cursor.advance_two_rest ahead
  refine ⟨scanner.current.advance scanner.current.rest.length, ?_, fun steps => ?_⟩
  · rw [Cursor.advance_rest, List.drop_length]
  · exact pieces_of_last_comment ahead (blockComment_of_unclosed shallow unclosed behind)

end Scanner

/-! ## Comments in a scan -/

namespace Scan

variable {source : String} {front : List Piece}

theorem message_ne_of_closed {piece : Piece} {message : String} (closed : ¬piece.IsOpen)
    (complains : piece.complaint? = some message) : message ≠ "Unterminated block comment." := by
  cases piece with
  | unexpected character =>
      cases complains
      intro same
      have third := congrArg (·.toList[2]?) same
      rw [String.toList_append, List.getElem?_append_left (by decide)] at third
      exact absurd third (by decide)
  | openString | openComment => exact absurd trivial closed
  | _ => cases complains

/-- Behind some pieces and a comment the scan goes on as a scan of what is left, on the lines
below. -/
structure GoesOn (overflow : Overflow) (source : String) (front : List Piece)
    (comment left : List Char) : Prop where
  scanned : ∀ text ∈ [source, String.ofList left], ∀ log, Scanner.scan overflow log text =
    pure ((ofSource text).tokens, log.reportAll (ofSource text).diagnostics)
  tokens : (ofSource source).tokens =
    Piece.words front ++ (ofSource (String.ofList left)).tokens.map
      (Token.down ((front.flatMap Piece.text ++ comment).count '\n'))
  diagnostics : (ofSource source).diagnostics =
    Piece.faults source.toList front ++ (ofSource (String.ofList left)).diagnostics.map
      (Diagnostic.down ((front.flatMap Piece.text ++ comment).count '\n'))

/-- Behind some pieces the scan ends in a comment that is not closed. It reports that once, on
the line where the comment begins, and gives nothing more than the mark of the end. -/
structure BreaksOff (overflow : Overflow) (source : String) (front : List Piece) : Prop where
  scanned : ∀ log, Scanner.scan overflow log source =
    pure ((ofSource source).tokens, log.reportAll (ofSource source).diagnostics)
  tokens : (ofSource source).tokens =
    Piece.words front ++ [Token.endAt (lineBehind source.toList)]
  diagnostics : (ofSource source).diagnostics =
    Piece.faults source.toList front ++
      [⟨.lexical, lineBehind (front.flatMap Piece.text), .unspecified,
        "Unterminated block comment."⟩]
  once : ∀ diagnostic ∈ Piece.faults source.toList front,
    diagnostic.message ≠ "Unterminated block comment."

theorem shallow_of_reads {overflow : Overflow} {left : List Char}
    (reads : Piece.Reads source.toList front left)
    (shallow : (Cursor.start source).Shallow overflow) :
    (Cursor.start (String.ofList left)).Shallow overflow := by
  rw [Cursor.shallow_iff, pieces_of_reads reads] at shallow
  exact Cursor.shallow_iff.mpr (List.forall_mem_append.mp shallow).2

theorem goesOn_of_closedBy {overflow : Overflow}
    (reads : Piece.Reads source.toList front ('/' :: '*' :: rest))
    (shallow : (Cursor.start source).Shallow overflow) (closed : ClosedBy rest body after) :
    GoesOn overflow source front ('/' :: '*' :: body) after := by
  have found := closeComment_eq_some_iff_closedBy.mpr ⟨after, closed⟩
  have read : Piece.read '/' ('*' :: rest) = .blockComment ('/' :: '*' :: body) := by
    simp only [Piece.read, Piece.afterSlash, found]
  have split : '/' :: '*' :: rest = (Piece.read '/' ('*' :: rest)).text ++ after := by
    rw [read, closed.split]
    rfl
  have whole := reads.snoc split
  rw [read] at whole
  have tokens := tokens_of_reads whole
  have diagnostics := diagnostics_of_reads whole
  rw [List.flatMap_append, Piece.words_concat] at tokens
  rw [List.flatMap_append, Piece.faults_concat] at diagnostics
  simp only [List.flatMap_singleton] at tokens diagnostics
  constructor
  · have behind := shallow_of_reads whole shallow
    exact List.forall_mem_cons.mpr ⟨(Scanner.scan_eq · shallow),
      List.forall_mem_singleton.mpr (Scanner.scan_eq · behind)⟩
  · rw [tokens]
    simp [Piece.tokenAt?, Piece.written?, Piece.text]
  · rw [diagnostics]
    simp [Piece.diagnosticAt?, Piece.complaint?, Piece.text]

/-- Where no comment can be derived, all that is left is read as a piece that is not closed. -/
theorem breaksOff_of_unclosed {overflow : Overflow}
    (reads : Piece.Reads source.toList front ('/' :: '*' :: rest))
    (shallow : (Cursor.start source).Shallow overflow)
    (unclosed : ∀ body after, ¬ClosedBy rest body after) :
    BreaksOff overflow source front := by
  have notFound : Piece.closeComment 0 rest = none :=
    closeComment_eq_none_iff_closedBy.mpr unclosed
  have read : Piece.read '/' ('*' :: rest) = .openComment ('/' :: '*' :: rest) := by
    simp only [Piece.read, Piece.afterSlash, notFound]
  have split : '/' :: '*' :: rest = (Piece.read '/' ('*' :: rest)).text ++ [] := by
    rw [read]
    exact (List.append_nil _).symm
  have whole := reads.snoc split
  rw [read] at whole
  refine ⟨(Scanner.scan_eq · shallow), ?_, ?_, fun diagnostic member same => ?_⟩
  · rw [tokens_of_reads_all whole, Piece.words_concat]
    simp [Piece.tokenAt?, Piece.written?]
  · rw [diagnostics_of_reads_all whole, Piece.faults_concat]
    rfl
  · obtain ⟨piece, isPiece, complains⟩ := Piece.exists_of_mem_faults member
    have closed := reads.closed (List.cons_ne_nil _ _) piece isPiece
    exact message_ne_of_closed closed complains same

/-- Block comments are what the grammar derives. Behind a mark that opens a comment, the text
of which the grammar derives a comment is one text if there is any. The scanner then goes just
behind it, reports nothing and has its line feeds counted, and the scan goes on there. If there
is none, the scanner goes to the end of the text and reports that once, on the line of the
outermost mark, and only the mark of the end follows. All of this holds as long as no more
comments are open at once than the scanner can count. -/
theorem comments_nest {overflow : Overflow} {rest : List Char}
    (fits : Piece.deepest 0 rest < overflow.limit) :
    (∀ body after, ClosedBy rest body after →
      (∀ other left, ClosedBy rest other left → other = body ∧ left = after) ∧
      (∀ scanner : Scanner, scanner.current.rest = rest →
        ∃ current, scanner.blockComment overflow = pure { scanner with current } ∧
          current.rest = after ∧
          current.line = scanner.current.line + body.count '\n') ∧
      (∀ scanner : Scanner, scanner.current.rest = '/' :: '*' :: rest →
        scanner.GoesOn overflow body after) ∧
      ∀ source front, Piece.Reads source.toList front ('/' :: '*' :: rest) →
        (Cursor.start source).Shallow overflow →
        GoesOn overflow source front ('/' :: '*' :: body) after) ∧
    ((∀ body after, ¬ClosedBy rest body after) →
      (∀ scanner : Scanner, scanner.current.rest = rest →
        ∃ current, scanner.blockComment overflow = pure
            { scanner with
              current
              log := scanner.log.reportLexical scanner.start.line
                "Unterminated block comment." } ∧
          current.rest = []) ∧
      (∀ scanner : Scanner, scanner.current.rest = '/' :: '*' :: rest →
        scanner.BreaksOff overflow) ∧
      ∀ source front, Piece.Reads source.toList front ('/' :: '*' :: rest) →
        (Cursor.start source).Shallow overflow → BreaksOff overflow source front) := by
  constructor
  · intro body after closed
    refine ⟨fun _ _ again => closed.unique again, fun scanner ahead => ?_, fun scanner ahead => ?_,
      fun source front reads shallow => goesOn_of_closedBy reads shallow closed⟩
    · exact scanner.blockComment_of_closedBy fits closed ahead
    · exact scanner.goesOn_of_closedBy fits closed ahead
  · intro unclosed
    refine ⟨fun scanner ahead => ?_, fun scanner ahead => ?_,
      fun source front reads shallow => breaksOff_of_unclosed reads shallow unclosed⟩
    · refine ⟨_, scanner.blockComment_of_unclosed fits unclosed ahead, ?_⟩
      rw [Cursor.advance_rest, ahead, List.drop_length]
    · exact scanner.breaksOff_of_unclosed fits unclosed ahead

/-- A mark that closes a comment may share a slash with one that would open another, and a mark
does not close the comment that it opens. -/
theorem comments_nest_overlapping :
    let front : List Piece := [.blank '\n', .token .minus ['-'] none]
    let body := ['/', '*', '/', '*', '*', '/', '\n', '*', '/', '*', '/']
    (Piece.deepest 0 (body ++ ['+']) < Overflow.panics.limit ∧
      ClosedBy (body ++ ['+']) body ['+'] ∧
      Piece.Reads "\n-/*/*/**/\n*/*/+".toList front ('/' :: '*' :: (body ++ ['+'])) ∧
      (Cursor.start "\n-/*/*/**/\n*/*/+").Shallow .panics ∧
      GoesOn .panics "\n-/*/*/**/\n*/*/+" front ('/' :: '*' :: body) ['+']) ∧
    (Piece.deepest 0 ['/'] < Overflow.wraps.limit ∧ (∀ body after, ¬ClosedBy ['/'] body after) ∧
      Piece.Reads "\n-/*/".toList front ['/', '*', '/'] ∧
      (Cursor.start "\n-/*/").Shallow .wraps ∧ BreaksOff .wraps "\n-/*/" front) := by
  intro front body
  have fits : Piece.deepest 0 (body ++ ['+']) < Overflow.panics.limit := by decide
  have closed : ClosedBy (body ++ ['+']) body ['+'] :=
    ⟨rfl, CommentPart.derives_comment_iff.mpr
      (Piece.closeComment_eq_some_iff.mp (by decide : Piece.closeComment 0 body = some body)).1⟩
  have reads : Piece.Reads "\n-/*/*/**/\n*/*/+".toList front
      ('/' :: '*' :: (body ++ ['+'])) := .more rfl (.more rfl .done)
  have shallow : (Cursor.start "\n-/*/*/**/\n*/*/+").Shallow .panics :=
    Cursor.shallow_of_length _ _ (by decide)
  have fitsOpen : Piece.deepest 0 ['/'] < Overflow.wraps.limit := by decide
  have unclosed : ∀ body after, ¬ClosedBy ['/'] body after :=
    closeComment_eq_none_iff_closedBy.mp rfl
  have readsOpen : Piece.Reads "\n-/*/".toList front ['/', '*', '/'] :=
    .more rfl (.more rfl .done)
  have shallowOpen : (Cursor.start "\n-/*/").Shallow .wraps :=
    Cursor.shallow_of_length _ _ (by decide)
  exact ⟨⟨fits, closed, reads, shallow,
      ((comments_nest fits).1 _ _ closed).2.2.2 _ _ reads shallow⟩,
    fitsOpen, unclosed, readsOpen, shallowOpen,
    ((comments_nest fitsOpen).2 unclosed).2.2 _ _ readsOpen shallowOpen⟩

/-- Behind a mark that opens a comment, four billion more of them and one mark that closes a
comment are no comment. Where the count wraps around they are taken for one and nothing is
reported, and where overflow is a panic they are one. -/
theorem not_comments_nest :
    let rest := Piece.openings (2 ^ 32) ++ ['*', '/']
    (∀ body after, ¬ClosedBy rest body after) ∧
      ∀ scanner : Scanner, scanner.current.rest = rest →
        scanner.blockComment .panics = throw .overflow ∧
          ∃ current, scanner.blockComment .wraps = pure { scanner with current } ∧
            current.rest = [] := by
  have unclosed : ∀ body after, ¬ClosedBy (Piece.openings (2 ^ 32) ++ ['*', '/']) body after :=
    closeComment_eq_none_iff_closedBy.mp
      (Piece.closeComment_openings_eq_none (by decide : 0 < 2 ^ 32))
  have deep : Overflow.panics.limit ≤
      Piece.deepest 0 (Piece.openings (2 ^ 32) ++ ['*', '/']) :=
    Nat.le_trans (by decide) (Piece.le_deepest_openings (2 ^ 32) _)
  refine ⟨unclosed, fun scanner ahead => ⟨?_, ?_⟩⟩
  · exact scanner.blockComment_panics (by rw [ahead]; exact deep)
  · have ahead := ahead.trans (List.append_nil _).symm
    refine ⟨_, scanner.blockComment_openings ahead, ?_⟩
    exact Cursor.advance_rest_of_append ahead

end Scan

end Reckon
