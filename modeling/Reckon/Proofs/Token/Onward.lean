import Reckon.Proofs.Token.LineBreak

/-!
# Scanning on

Behind any of its pieces a text is scanned as if what is left were a text of its own, only that
it stands on lines further down. So the scan of a text is put together from what has been read
and from the scan of what is left.
-/

namespace Reckon

variable {text left : List Char} {front : List Piece}

namespace Piece

theorem Reads.flatMap_text (reads : Reads text front left) :
    front.flatMap Piece.text ++ left = text := by
  induction reads with
  | done => rfl
  | more split _ ih => rw [List.flatMap_cons, List.append_assoc, ih, ← split]

theorem Reads.snoc {first : Char} {rest after : List Char}
    (reads : Reads text front (first :: rest))
    (split : first :: rest = (read first rest).text ++ after) :
    Reads text (front ++ [read first rest]) after :=
  reads.append (.more split .done)

/-- A piece that is not closed goes on up to the end of the text. -/
theorem Fits.eq_nil_of_isOpen {piece : Piece} {after : List Char} (fits : piece.Fits after)
    (isOpen : piece.IsOpen) : after = [] := by
  cases fits with
  | openString | openComment => rfl
  | token | blank | lineComment | blockComment | unexpected => exact absurd isOpen id

theorem fits_of_split {first : Char} {rest after : List Char}
    (split : first :: rest = (read first rest).text ++ after) : (read first rest).Fits after := by
  obtain ⟨other, same, fits⟩ := read_begins first rest
  rw [split] at same
  rw [List.append_cancel_left same]
  exact fits

/-- Where something is left, all that has been read is closed. -/
theorem Reads.closed (reads : Reads text front left) (more : left ≠ []) :
    ∀ piece ∈ front, ¬piece.IsOpen := by
  induction reads with
  | done => exact List.forall_mem_nil _
  | more split reads ih =>
      refine List.forall_mem_cons.mpr ⟨fun isOpen => ?_, ih more⟩
      obtain rfl := (fits_of_split split).eq_nil_of_isOpen isOpen
      exact more (List.append_eq_nil_iff.mp reads.flatMap_text).2

/-- The tokens among the pieces that a text begins with. -/
def words (front : List Piece) : List Token :=
  (placed [] front).filterMap fun place => place.2.tokenAt? place.1

/-- What is wrong with the pieces that a source text begins with. -/
def faults (source : List Char) (front : List Piece) : List Diagnostic :=
  (placed [] front).filterMap fun place => place.2.diagnosticAt? source place.1

theorem words_append (front back : List Piece) :
    words (front ++ back) =
      words front ++
        (words back).map (Token.down ((front.flatMap Piece.text).count '\n')) := by
  have behind := placed_above (front.flatMap Piece.text) [] back
  rw [List.append_nil] at behind
  simp only [words, placed_append, List.nil_append, behind, List.filterMap_append,
    List.filterMap_map, List.map_filterMap, Function.comp_def, tokenAt?_append]

theorem words_concat (front : List Piece) (piece : Piece) :
    words (front ++ [piece]) =
      words front ++ (piece.tokenAt? (front.flatMap Piece.text)).toList := by
  rw [words, placed_append, List.filterMap_append, List.nil_append]
  cases found : piece.tokenAt? (front.flatMap Piece.text) <;> simp [words, placed, found]

theorem faults_concat (source : List Char) (front : List Piece) (piece : Piece) :
    faults source (front ++ [piece]) =
      faults source front ++
        (piece.diagnosticAt? source (front.flatMap Piece.text)).toList := by
  rw [faults, placed_append, List.filterMap_append, List.nil_append]
  cases found : piece.diagnosticAt? source (front.flatMap Piece.text) <;>
    simp [faults, placed, found]

theorem exists_of_mem_faults {source : List Char} {diagnostic : Diagnostic}
    (member : diagnostic ∈ faults source front) :
    ∃ piece ∈ front, piece.complaint? = some diagnostic.message := by
  obtain ⟨⟨before, piece⟩, isPlaced, found⟩ := List.mem_filterMap.mp member
  obtain ⟨message, complains, rfl⟩ := Option.map_eq_some_iff.mp found
  have isPiece : piece ∈ (placed [] front).map Prod.snd := List.mem_map_of_mem isPlaced
  rw [map_snd_placed] at isPiece
  exact ⟨piece, isPiece, complains⟩

end Piece

namespace Scan

variable {source : String}

theorem pieces_of_reads (reads : Piece.Reads source.toList front left) :
    (Cursor.start source).pieces.map Prod.snd =
      front ++ (Cursor.start (String.ofList left)).pieces.map Prod.snd := by
  have others := (Cursor.start (String.ofList left)).reads
  have begins : (Cursor.start (String.ofList left)).rest = left := String.toList_ofList
  rw [begins] at others
  exact (reads.append others).pieces_eq rfl

theorem placed_of_reads (reads : Piece.Reads source.toList front left) :
    placed source =
      Piece.placed [] front ++ (placed (String.ofList left)).map fun place =>
        (front.flatMap Piece.text ++ place.1, place.2) := by
  have behind := Piece.placed_above (front.flatMap Piece.text) []
    ((Cursor.start (String.ofList left)).pieces.map Prod.snd)
  rw [List.append_nil] at behind
  rw [placed, pieces_of_reads reads, Piece.placed_append, List.nil_append, behind]
  rfl

/-- The tokens of a text are those that have been read, and those of what is left. -/
theorem tokens_of_reads (reads : Piece.Reads source.toList front left) :
    (ofSource source).tokens =
      Piece.words front ++ (ofSource (String.ofList left)).tokens.map
        (Token.down ((front.flatMap Piece.text).count '\n')) := by
  have last : Token.endAt (lineBehind source.toList) =
      (Token.endAt (lineBehind (String.ofList left).toList)).down
        ((front.flatMap Piece.text).count '\n') := by
    rw [← reads.flatMap_text, lineBehind_append, String.toList_ofList]
    rfl
  rw [tokens_eq_placed, placed_of_reads reads, tokens_eq_placed (String.ofList left), last,
    List.filterMap_append, List.filterMap_map, List.map_append, List.map_filterMap,
    List.append_assoc]
  simp only [Function.comp_def, Piece.tokenAt?_append]
  rfl

theorem tokens_of_reads_all (reads : Piece.Reads source.toList front []) :
    (ofSource source).tokens = Piece.words front ++ [Token.endAt (lineBehind source.toList)] := by
  have all : (Cursor.start source).pieces.map Prod.snd = front := reads.pieces_eq rfl
  rw [tokens_eq_placed, placed, all]
  rfl

theorem diagnostics_of_reads_all (reads : Piece.Reads source.toList front []) :
    (ofSource source).diagnostics = Piece.faults source.toList front := by
  have all : (Cursor.start source).pieces.map Prod.snd = front := reads.pieces_eq rfl
  rw [diagnostics_eq_placed, placed, all]
  rfl

/-- What is wrong with a text is what is wrong with the pieces that have been read, and with
what is left. -/
theorem diagnostics_of_reads (reads : Piece.Reads source.toList front left) :
    (ofSource source).diagnostics =
      Piece.faults source.toList front ++ (ofSource (String.ofList left)).diagnostics.map
        (Diagnostic.down ((front.flatMap Piece.text).count '\n')) := by
  have whole : source.toList = front.flatMap Piece.text ++ (String.ofList left).toList := by
    rw [String.toList_ofList, reads.flatMap_text]
  rw [diagnostics_eq_placed, placed_of_reads reads, diagnostics_eq_placed (String.ofList left),
    List.filterMap_append, List.filterMap_map, List.map_filterMap]
  simp only [Function.comp_def, whole, Piece.diagnosticAt?_append]
  rfl

end Scan

end Reckon
