import Reckon.Proofs.Token.Division

/-!
# Lines of tokens

The place of a piece is told by the text before it, and so is its line. This module
proves that the scan puts every token on the line where it begins, whatever line feeds
there are in strings and comments before it, and every complaint on the line of what is
wrong.
-/

namespace Reckon

namespace Piece

/-- Consecutive pieces, each with the text before it. -/
def placed : (before : List Char) → List Piece → List (List Char × Piece)
  | _, [] => []
  | before, piece :: pieces => (before, piece) :: placed (before ++ piece.text) pieces

/-- The token that a piece is written for, on the line where the piece begins. -/
def tokenAt? (before : List Char) (piece : Piece) : Option Token :=
  piece.written?.map fun token => { token with line := lineBehind before }

/-- The text before what is wrong with a piece of a source text. A string that is never
closed lacks its quote at the end of the text; any other fault is where its piece
begins. -/
def beforeFault (source before : List Char) : Piece → List Char
  | .openString _ => source
  | _ => before

/-- The diagnostic for a piece of a source text, on the line of what is wrong. -/
def diagnosticAt? (source before : List Char) (piece : Piece) : Option Diagnostic :=
  piece.complaint?.map fun message =>
    ⟨.lexical, lineBehind (piece.beforeFault source before), .unspecified, message⟩

theorem prefix_of_mem_placed {start before : List Char} {pieces : List Piece} {piece : Piece}
    (member : (before, piece) ∈ placed start pieces) :
    before ++ piece.text <+: start ++ pieces.flatMap Piece.text := by
  induction pieces generalizing start with
  | nil => cases member
  | cons first pieces ih =>
      rw [List.flatMap_cons]
      rcases List.mem_cons.mp member with equal | later
      · cases equal
        rw [← List.append_assoc]
        exact List.prefix_append _ _
      · rw [← List.append_assoc]
        exact ih later

end Piece

/-! ## The walk of the cursor -/

variable {cursor : Cursor} {before after : List Char} {piece : Piece}

theorem Piece.token?_of_consumed (consumed : cursor.Consumed before) (piece : Piece) :
    piece.token? cursor = piece.tokenAt? before := by
  cases piece with
  | token kind lexeme literal =>
      simp only [token?, tokenAt?, written?, Option.map_some, consumed.line]
  | _ => rfl

theorem Piece.Fits.diagnostic?_of_consumed (fits : piece.Fits after)
    (consumed : cursor.Consumed before) (ahead : cursor.rest = piece.text ++ after) :
    piece.diagnostic? cursor = piece.diagnosticAt? cursor.source.toList before := by
  cases fits with
  | unexpected =>
      simp only [diagnostic?, diagnosticAt?, complaint?, Option.map_some, beforeFault,
        consumed.line]
  | @openString content =>
      -- The piece is all that is left, so the cursor is read to the end of the text.
      have ends : (cursor.advance (Piece.openString ('"' :: content)).text.length).line =
          lineBehind cursor.source.toList := by
        rw [← consumed.atEnd, ahead, List.append_nil]
      simp only [diagnostic?, diagnosticAt?, complaint?, Option.map_some, beforeFault]
      rw [← ends]
      rfl
  | openComment =>
      simp only [diagnostic?, diagnosticAt?, complaint?, Option.map_some, beforeFault,
        consumed.line]
  | token | blank | lineComment | blockComment => rfl

theorem Cursor.Consumed.pieces {cursor : Cursor} {before : List Char}
    (consumed : cursor.Consumed before) :
    cursor.pieces.map (fun located =>
        (located.2.token? located.1, located.2.diagnostic? located.1)) =
      (Piece.placed before (cursor.pieces.map Prod.snd)).map fun place =>
        (place.2.tokenAt? place.1, place.2.diagnosticAt? cursor.source.toList place.1) := by
  cases ahead : cursor.rest with
  | nil =>
      rw [pieces_of_nil ahead]
      rfl
  | cons first rest =>
      obtain ⟨after, equal, fits⟩ := Piece.read_begins first rest
      have split := ahead.trans equal
      have moved := consumed.advance split
      have next := advance_rest_of_append split
      have others := moved.pieces
      rw [advance_source] at others
      rw [pieces_of_cons ahead, List.map_cons, List.map_cons, Piece.placed, List.map_cons,
        others, Piece.token?_of_consumed consumed, fits.diagnostic?_of_consumed consumed split]
termination_by cursor.rest.length
decreasing_by
  have positive := List.length_pos_iff.mpr fits.text_ne_nil
  rw [next, split, List.length_append]
  omega

/-! ## Tokens at their places -/

/-- A token and the text before it. -/
structure Spot where
  before : List Char
  token : Token

/-- A spot is right about a source text: the token is written there, and its line is
that of its first character. -/
structure Spot.In (spot : Spot) (source : List Char) : Prop where
  written : spot.before ++ spot.token.lexeme.toList <+: source
  line : spot.token.line = lineBehind spot.before

namespace Scan

/-- The pieces of a source text, each with the text before it. -/
def placed (source : String) : List (List Char × Piece) :=
  Piece.placed [] ((Cursor.start source).pieces.map Prod.snd)

/-- The tokens of a source text at their places. The mark of the end stands behind all
of the text. -/
def spots (source : String) : List Spot :=
  (placed source).filterMap (fun place =>
      (place.2.tokenAt? place.1).map (Spot.mk place.1)) ++
    [⟨source.toList, Token.endAt (lineBehind source.toList)⟩]

theorem tokens_eq_spots (source : String) :
    (ofSource source).tokens = (spots source).map Spot.token := by
  have walked := congrArg (List.filterMap Prod.fst) (Cursor.start_consumed source).pieces
  simp only [List.filterMap_map, Function.comp_def] at walked
  have ends := (Cursor.start_consumed source).atEnd
  simp only [ofSource, spots, placed, walked, ends, List.map_append, List.map_filterMap,
    Option.map_map, Function.comp_def, Option.map_id', List.map_cons, List.map_nil]
  rfl

theorem diagnostics_eq_placed (source : String) :
    (ofSource source).diagnostics = (placed source).filterMap fun place =>
      place.2.diagnosticAt? source.toList place.1 := by
  have walked := congrArg (List.filterMap Prod.snd) (Cursor.start_consumed source).pieces
  simp only [List.filterMap_map, Function.comp_def] at walked
  exact walked

/-- Every token of a scan is where its spot says. -/
theorem spots_in (source : String) : ∀ spot ∈ spots source, spot.In source.toList := by
  intro spot member
  rcases List.mem_append.mp member with inside | atEnd
  · obtain ⟨⟨before, piece⟩, isPlaced, found⟩ := List.mem_filterMap.mp inside
    obtain ⟨token, isToken, rfl⟩ := Option.map_eq_some_iff.mp found
    have written := Piece.prefix_of_mem_placed isPlaced
    rw [List.nil_append, (Cursor.start source).pieces_divide.flatMap_text] at written
    cases piece with
    | token kind lexeme literal =>
        cases isToken
        refine ⟨?_, rfl⟩
        rw [String.toList_ofList]
        exact written
    | _ => cases isToken
  · rw [List.mem_singleton.mp atEnd]
    exact ⟨by simp [Token.endAt], rfl⟩

end Scan

end Reckon
