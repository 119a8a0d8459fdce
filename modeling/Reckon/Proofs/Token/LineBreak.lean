import Mathlib.Data.List.Basic
import Reckon.Proofs.Token.Line

/-!
# Scanning line by line

Nothing but a string or a block comment that is still open reaches across a line feed. So a
text whose strings and comments are closed at its end is scanned as it would be alone,
whatever stands on the lines below it, and the lines below are scanned as a text of their
own, moved down.
-/

namespace Reckon

/-! ## Reading on -/

/-- Pieces are read from the beginning of a text, one behind the other, and a text is left
behind them. -/
inductive Piece.Reads : (text : List Char) → List Piece → (left : List Char) → Prop where
  | done {text : List Char} : Reads text [] text
  | more {first : Char} {rest after left : List Char} {pieces : List Piece} :
      first :: rest = (read first rest).text ++ after → Reads after pieces left →
      Reads (first :: rest) (read first rest :: pieces) left

variable {text middle left : List Char} {front back pieces : List Piece}

theorem Piece.Reads.append (reads : Reads text front middle) (others : Reads middle back left) :
    Reads text (front ++ back) left := by
  induction reads with
  | done => exact others
  | more split _ ih => exact .more split (ih others)

theorem Cursor.reads (cursor : Cursor) :
    Piece.Reads cursor.rest (cursor.pieces.map Prod.snd) [] := by
  cases ahead : cursor.rest with
  | nil =>
      rw [pieces_of_nil ahead]
      exact .done
  | cons first rest =>
      obtain ⟨after, split, fits⟩ := Piece.read_begins first rest
      have next : (cursor.advance (Piece.read first rest).text.length).rest = after :=
        advance_rest_of_append (ahead.trans split)
      have others := (cursor.advance (Piece.read first rest).text.length).reads
      rw [next] at others
      rw [pieces_of_cons ahead, List.map_cons]
      exact .more split others
termination_by cursor.rest.length
decreasing_by
  have positive := List.length_pos_iff.mpr fits.text_ne_nil
  rw [next, ahead, split, List.length_append]
  omega

theorem Piece.Reads.pieces_eq (reads : Reads text pieces []) :
    ∀ {cursor : Cursor}, cursor.rest = text → cursor.pieces.map Prod.snd = pieces := by
  generalize ends : [] = left at reads
  induction reads with
  | done =>
      intro cursor ahead
      rw [Cursor.pieces_of_nil (ahead.trans ends.symm)]
      rfl
  | more split _ ih =>
      intro cursor ahead
      rw [Cursor.pieces_of_cons ahead, List.map_cons, ih ends]
      exact Cursor.advance_rest_of_append (ahead.trans split)

/-! ## Reading up to a line feed -/

namespace Piece

/-- A piece that is not closed at the end of its text. -/
def IsOpen : Piece → Prop
  | .openString _ | .openComment _ => True
  | _ => False

variable {rest : List Char} (tail : List Char)

theorem orEqual_append (single withEqual : Kind) (first : Char) (rest : List Char) :
    orEqual single withEqual first (rest ++ '\n' :: tail) =
      orEqual single withEqual first rest := by
  cases rest with
  | nil => rfl
  | cons second rest =>
      by_cases equal : second = '='
      · rw [equal]
        rfl
      · simp [orEqual, equal]

theorem afterSlash_append (closed : ¬(afterSlash rest).IsOpen) :
    afterSlash (rest ++ '\n' :: tail) = afterSlash rest := by
  cases rest with
  | nil => rfl
  | cons second rest =>
      by_cases line : second = '/'
      · subst line
        have taken : (rest ++ '\n' :: tail).takeWhile (· != '\n') = rest.takeWhile (· != '\n') :=
          (Text.span_stop (by decide) rest tail).1
        simp only [afterSlash, List.cons_append, taken]
      · by_cases block : second = '*'
        · subst block
          cases found : closeComment 0 rest with
          | none =>
              simp only [afterSlash, found] at closed
              exact absurd trivial closed
          | some body =>
              obtain ⟨closes, reaches⟩ := closeComment_eq_some_iff.mp found
              have again : closeComment 0 (rest ++ '\n' :: tail) = some body :=
                closeComment_eq_some_iff.mpr ⟨closes, reaches.trans (List.prefix_append _ _)⟩
              simp only [afterSlash, List.cons_append, found, again]
        · simp [afterSlash, line, block]

theorem afterQuote_append (closed : ¬(afterQuote rest).IsOpen) :
    afterQuote (rest ++ '\n' :: tail) = afterQuote rest := by
  by_cases quoted : '"' ∈ rest
  · obtain ⟨content, after, rfl, unquoted⟩ := List.eq_append_cons_of_mem quoted
    rw [List.append_assoc, List.cons_append, afterQuote_eq unquoted, afterQuote_eq unquoted]
  · have taken := (Text.span_exact [] (Text.bne_of_notMem quoted) (by simp)).1
    rw [List.append_nil] at taken
    rw [afterQuote, taken, if_pos rfl] at closed
    exact absurd trivial closed

theorem numeral_append (first : Char) (rest : List Char) :
    numeral first (rest ++ '\n' :: tail) = numeral first rest := by
  have stops : Char.isDigit '\n' = false := by decide
  obtain ⟨taken, dropped⟩ := Text.span_stop stops rest tail
  rw [numeral, numeral, taken, dropped]
  cases rest.dropWhile Char.isDigit with
  | nil => rfl
  | cons point digits =>
      by_cases isPoint : point = '.'
      · simp only [isPoint, List.cons_append, (Text.span_stop stops digits tail).1]
      · simp [isPoint]

theorem word_append (first : Char) (rest : List Char) :
    word first (rest ++ '\n' :: tail) = word first rest := by
  rw [word, word, (Text.span_stop (by decide) rest tail).1]

theorem read_append {first : Char} (closed : ¬(read first rest).IsOpen) :
    read first (rest ++ '\n' :: tail) = read first rest := by
  refine read_congr (numeral_append tail first rest) (word_append tail first rest)
    (fun _ _ => orEqual_append tail _ _ first rest) ?_ ?_
  · rintro rfl
    exact afterSlash_append tail closed
  · rintro rfl
    exact afterQuote_append tail closed

theorem Reads.append_lineBreak (reads : Reads text pieces left)
    (closed : ∀ piece ∈ pieces, ¬piece.IsOpen) :
    Reads (text ++ '\n' :: tail) pieces (left ++ '\n' :: tail) := by
  induction reads with
  | done => exact .done
  | @more first rest after left pieces split _ ih =>
      rw [List.forall_mem_cons] at closed
      have same := read_append tail closed.1
      have whole : first :: (rest ++ '\n' :: tail) =
          (read first (rest ++ '\n' :: tail)).text ++ (after ++ '\n' :: tail) := by
        rw [same, ← List.append_assoc, ← split, List.cons_append]
      have further := Reads.more whole (ih closed.2)
      rw [same] at further
      exact further

/-- The pieces of a text that is closed at its end, of a line feed, and of the text below. -/
theorem Reads.lines {below : List Char} {others : List Piece} (reads : Reads text pieces [])
    (closed : ∀ piece ∈ pieces, ¬piece.IsOpen) (readsBelow : Reads below others []) :
    Reads (text ++ '\n' :: below) (pieces ++ .blank '\n' :: others) [] := by
  have lineFeed : Reads ('\n' :: below) (.blank '\n' :: others) [] := .more rfl readsBelow
  exact (reads.append_lineBreak below closed).append lineFeed

end Piece

/-! ## Lines further down -/

def Token.down (lines : Nat) (token : Token) : Token := { token with line := token.line + lines }

def Diagnostic.down (lines : Nat) (diagnostic : Diagnostic) : Diagnostic :=
  { diagnostic with line := diagnostic.line + lines }

theorem lineBehind_append (front back : List Char) :
    lineBehind (front ++ back) = lineBehind back + front.count '\n' := by
  rw [lineBehind, lineBehind, List.count_append]
  omega

namespace Piece

variable (above : List Char) (before source : List Char) (piece : Piece)

theorem tokenAt?_append :
    piece.tokenAt? (above ++ before) =
      (piece.tokenAt? before).map (Token.down (above.count '\n')) := by
  rw [tokenAt?, tokenAt?, lineBehind_append, Option.map_map]
  rfl

theorem diagnosticAt?_append :
    piece.diagnosticAt? (above ++ source) (above ++ before) =
      (piece.diagnosticAt? source before).map (Diagnostic.down (above.count '\n')) := by
  have moved : piece.beforeFault (above ++ source) (above ++ before) =
      above ++ piece.beforeFault source before := by
    cases piece <;> rfl
  rw [diagnosticAt?, diagnosticAt?, moved, lineBehind_append, Option.map_map]
  rfl

/-- What is wrong with a closed piece does not depend on the text behind it. -/
theorem diagnosticAt?_of_closed (closed : ¬piece.IsOpen) (other : List Char) :
    piece.diagnosticAt? source before = piece.diagnosticAt? other before := by
  cases piece with
  | openString => exact absurd trivial closed
  | _ => rfl

@[simp] theorem placed_append (before : List Char) (front back : List Piece) :
    placed before (front ++ back) =
      placed before front ++ placed (before ++ front.flatMap Piece.text) back := by
  induction front generalizing before with
  | nil => rw [List.flatMap_nil, List.append_nil]; rfl
  | cons piece front ih =>
      rw [List.cons_append, placed, placed, ih, List.flatMap_cons, List.append_assoc]
      rfl

@[simp] theorem map_snd_placed (pieces : List Piece) :
    (placed before pieces).map Prod.snd = pieces := by
  induction pieces generalizing before with
  | nil => rfl
  | cons piece pieces ih => rw [placed, List.map_cons, ih]

theorem placed_above (pieces : List Piece) :
    placed (above ++ before) pieces =
      (placed before pieces).map fun place => (above ++ place.1, place.2) := by
  induction pieces generalizing before with
  | nil => rfl
  | cons piece pieces ih => rw [placed, placed, List.map_cons, List.append_assoc, ih]

end Piece

namespace Scan

theorem tokens_eq_placed (source : String) :
    (ofSource source).tokens =
      (placed source).filterMap (fun place => place.2.tokenAt? place.1) ++
        [Token.endAt (lineBehind source.toList)] := by
  rw [tokens_eq_spots, spots, List.map_append, List.map_filterMap]
  simp only [Option.map_map, Function.comp_def, Option.map_id']
  rfl

/-- A text about which no string and no comment is reported has closed pieces only. -/
theorem closed_of_diagnostics {source : String}
    (closed : ∀ diagnostic ∈ (ofSource source).diagnostics,
      diagnostic.message ≠ "Unterminated string." ∧
        diagnostic.message ≠ "Unterminated block comment.") :
    ∀ piece ∈ (Cursor.start source).pieces.map Prod.snd, ¬piece.IsOpen := by
  intro piece member isOpen
  have reported : ∀ message, piece.complaint? = some message →
      ∃ diagnostic ∈ (ofSource source).diagnostics, diagnostic.message = message := by
    intro message complains
    apply List.mem_map.mp
    rw [diagnostics_message]
    exact List.mem_filterMap.mpr ⟨piece, member, complains⟩
  cases piece with
  | openString text =>
      obtain ⟨diagnostic, isReported, message⟩ := reported _ rfl
      exact (closed diagnostic isReported).1 message
  | openComment text =>
      obtain ⟨diagnostic, isReported, message⟩ := reported _ rfl
      exact (closed diagnostic isReported).2 message
  | _ => exact isOpen

variable {above : String}

/-- The pieces of a text that is closed at its end are followed by a line feed and by the
pieces of the text below, each behind what stands above. -/
theorem placed_lines (closed : ∀ piece ∈ (Cursor.start above).pieces.map Prod.snd, ¬piece.IsOpen)
    (below : String) :
    placed (above ++ "\n" ++ below) =
      placed above ++ (above.toList, .blank '\n') ::
        (placed below).map fun place => (above.toList ++ ['\n'] ++ place.1, place.2) := by
  have reads := (Cursor.start above).reads.lines closed (Cursor.start below).reads
  have whole : (Cursor.start (above ++ "\n" ++ below)).rest =
      above.toList ++ '\n' :: below.toList := by
    simp [Cursor.start]
  have text : ((Cursor.start above).pieces.map Prod.snd).flatMap Piece.text = above.toList :=
    (Cursor.start above).pieces_divide.flatMap_text
  have under := Piece.placed_above (above.toList ++ ['\n']) []
    ((Cursor.start below).pieces.map Prod.snd)
  rw [List.append_nil] at under
  rw [placed, reads.pieces_eq whole, Piece.placed_append, text, List.nil_append, Piece.placed,
    Piece.text, under]
  rfl

/-- What is found at the pieces of a text with another below it. -/
theorem filterMap_placed_lines {α : Type} (find : List Char × Piece → Option α)
    (closed : ∀ piece ∈ (Cursor.start above).pieces.map Prod.snd, ¬piece.IsOpen)
    (below : String) (blank : find (above.toList, .blank '\n') = none) :
    (placed (above ++ "\n" ++ below)).filterMap find =
      (placed above).filterMap find ++
        (placed below).filterMap fun place =>
          find (above.toList ++ ['\n'] ++ place.1, place.2) := by
  rw [placed_lines closed, List.filterMap_append, List.filterMap_cons_none blank,
    List.filterMap_map]
  rfl

/-- A line feed is a boundary for the scan unless a string or a block comment is open there.
A text in which none is left open is scanned as if it stood alone, and what is below the
line feed is scanned as if it did, only that all lines of it are moved down. -/
theorem ofSource_lines
    (closed : ∀ diagnostic ∈ (ofSource above).diagnostics,
      diagnostic.message ≠ "Unterminated string." ∧
        diagnostic.message ≠ "Unterminated block comment.")
    (below : String) :
    let whole := ofSource (above ++ "\n" ++ below)
    let lines := 1 + above.toList.count '\n'
    (∃ words line, (ofSource above).tokens = words ++ [Token.endAt line] ∧
      whole.tokens = words ++ (ofSource below).tokens.map (Token.down lines)) ∧
      whole.diagnostics =
        (ofSource above).diagnostics ++
          (ofSource below).diagnostics.map (Diagnostic.down lines) := by
  intro whole lines
  have isClosed := closed_of_diagnostics closed
  have text : (above ++ "\n" ++ below).toList = above.toList ++ ['\n'] ++ below.toList := by
    simp
  have count : (above.toList ++ ['\n']).count '\n' = lines := by
    rw [List.count_append, Nat.add_comm]
    rfl
  constructor
  · refine ⟨_, _, tokens_eq_placed above, ?_⟩
    have last : Token.endAt (lineBehind (above ++ "\n" ++ below).toList) =
        (Token.endAt (lineBehind below.toList)).down lines := by
      rw [text, lineBehind_append, count]
      rfl
    rw [tokens_eq_placed, filterMap_placed_lines _ isClosed below rfl, last,
      tokens_eq_placed below, List.map_append, List.map_filterMap, List.append_assoc]
    simp only [Piece.tokenAt?_append, count]
    rfl
  · have alone : (placed above).filterMap (fun place =>
          place.2.diagnosticAt? (above ++ "\n" ++ below).toList place.1) =
        (ofSource above).diagnostics := by
      rw [diagnostics_eq_placed]
      apply List.filterMap_congr
      intro place member
      have isPiece : place.2 ∈ (Cursor.start above).pieces.map Prod.snd := by
        rw [← Piece.map_snd_placed [] ((Cursor.start above).pieces.map Prod.snd)]
        exact List.mem_map_of_mem member
      exact Piece.diagnosticAt?_of_closed _ _ _ (isClosed _ isPiece) _
    rw [diagnostics_eq_placed, filterMap_placed_lines _ isClosed below rfl, alone,
      diagnostics_eq_placed below, List.map_filterMap]
    simp only [text, Piece.diagnosticAt?_append, count]

/-- A mark above the line feed does not form a longer one with what is below it, and an
unexpected character above it is no obstacle. -/
theorem ofSource_lines_marks :
    let above := "@\n/ 12. // \"\n!"
    let below := "= /* 5"
    let whole := ofSource (above ++ "\n" ++ below)
    let lines := 1 + above.toList.count '\n'
    (∀ diagnostic ∈ (ofSource above).diagnostics,
      diagnostic.message ≠ "Unterminated string." ∧
        diagnostic.message ≠ "Unterminated block comment.") ∧
      (∃ words line, (ofSource above).tokens = words ++ [Token.endAt line] ∧
        whole.tokens = words ++ (ofSource below).tokens.map (Token.down lines)) ∧
      whole.diagnostics =
        (ofSource above).diagnostics ++
          (ofSource below).diagnostics.map (Diagnostic.down lines) := by
  intro above below whole lines
  have closed : ∀ diagnostic ∈ (ofSource above).diagnostics,
      diagnostic.message ≠ "Unterminated string." ∧
        diagnostic.message ≠ "Unterminated block comment." := by
    decide +kernel
  exact ⟨closed, ofSource_lines closed below⟩

end Scan

end Reckon
