import Reckon.Proofs.Token.Division

/-!
# Tokens that stand apart

A text may be put together from pieces. If nothing but a blank follows any token in
it, no two pieces run into each other, and the scan of the text finds these very
pieces again. In particular a list of tokens is written with one space between each
two of them, and read back.
-/

namespace Reckon

/-- Consecutive pieces of a text in which a blank, or the end, follows each token. -/
inductive Piece.Spaced : List Char → List Piece → Prop where
  | nil : Spaced [] []
  | cons {piece : Piece} {after : List Char} {pieces : List Piece} :
      piece.Fits after → (piece.written?.isSome → Apart after) → Spaced after pieces →
      Spaced (piece.text ++ after) (piece :: pieces)

theorem Piece.Spaced.pieces {text : List Char} {pieces : List Piece}
    (spaced : Spaced text pieces) :
    ∀ {cursor : Cursor}, cursor.rest = text → cursor.pieces.map Prod.snd = pieces := by
  induction spaced with
  | nil =>
      intro cursor ends
      rw [Cursor.pieces_of_nil ends]
      rfl
  | @cons piece after pieces fits apart _ ih =>
      intro cursor ahead
      obtain ⟨first, rest, text, read⟩ := fits.read apart
      have start : cursor.rest = first :: (rest ++ after) := by
        rw [ahead, text]
        rfl
      have next := Cursor.advance_rest_of_append ahead
      rw [Cursor.pieces_of_cons start, read, List.map_cons, ih next]

/-- A token is written in one of the forms of its kind, and carries the literal that
this form stands for. -/
def Token.WellFormed (token : Token) : Prop :=
  Lexeme token.kind token.lexeme.toList token.literal

/-- The piece that a token is written as. -/
def Token.piece (token : Token) : Piece :=
  .token token.kind token.lexeme.toList token.literal

theorem Piece.Fits.wellFormed {piece : Piece} {after : List Char} {start : Cursor} {token : Token}
    (fits : piece.Fits after) (isToken : piece.token? start = some token) : token.WellFormed := by
  cases fits with
  | token lexeme =>
      cases isToken
      rw [Token.WellFormed, String.toList_ofList]
      exact lexeme
  | _ => cases isToken

@[simp] theorem Token.written?_piece (token : Token) :
    token.piece.written? = some token.unlined := by
  simp only [piece, Piece.written?, String.ofList_toList]
  rfl

/-- The text of tokens with one space between each two of them. -/
def Token.spell (tokens : List Token) : String :=
  " ".intercalate (tokens.map Token.lexeme)

/-- The pieces of tokens with one space between each two of them. -/
def Token.pieces : List Token → List Piece
  | [] => []
  | [token] => [token.piece]
  | token :: next :: rest => token.piece :: .blank ' ' :: pieces (next :: rest)

theorem Token.spell_cons (token next : Token) (rest : List Token) :
    (spell (token :: next :: rest)).toList =
      token.piece.text ++ (Piece.blank ' ').text ++ (spell (next :: rest)).toList := by
  simp only [spell, List.map_cons, String.intercalate_cons_cons, String.toList_append]
  rfl

theorem Token.spaced_pieces {tokens : List Token}
    (wellFormed : ∀ token ∈ tokens, token.WellFormed) :
    Piece.Spaced (spell tokens).toList (Token.pieces tokens) := by
  fun_induction Token.pieces tokens with
  | case1 => exact .nil
  | case2 token =>
      have form := wellFormed token (List.mem_singleton_self token)
      have alone : (spell [token]).toList = token.piece.text ++ [] := by
        simp only [spell, List.map_singleton, String.intercalate_singleton, List.append_nil]
        rfl
      rw [alone]
      apply Piece.Spaced.cons (.token form) _ .nil
      simp [Piece.Apart]
  | case3 token next rest ih =>
      obtain ⟨form, forms⟩ := List.forall_mem_cons.mp wellFormed
      rw [spell_cons, List.append_assoc]
      apply Piece.Spaced.cons (.token form)
      · intro _ character head
        cases head
        decide
      · apply Piece.Spaced.cons (.blank (by decide))
        · intro written
          cases written
        · exact ih forms

@[simp] theorem Token.written?_pieces (tokens : List Token) :
    (Token.pieces tokens).filterMap Piece.written? = tokens.map unlined := by
  fun_induction Token.pieces tokens with
  | case1 => rfl
  | case2 token => simp only [List.filterMap_cons, written?_piece, List.filterMap_nil,
      List.map_cons, List.map_nil]
  | case3 token next rest ih =>
      simp only [List.filterMap_cons, written?_piece, List.map_cons] at ih ⊢
      rw [ih]
      rfl

@[simp] theorem Token.complaint?_pieces (tokens : List Token) :
    (Token.pieces tokens).filterMap Piece.complaint? = [] := by
  fun_induction Token.pieces tokens with
  | case1 => rfl
  | case2 token => rfl
  | case3 token next rest ih => exact ih

/-- What a text of pieces that stand apart is scanned to. -/
theorem Scan.ofSource_spaced {source : String} {pieces : List Piece}
    (spaced : Piece.Spaced source.toList pieces) :
    (ofSource source).tokens.map Token.unlined =
        pieces.filterMap Piece.written? ++ [Token.endAt 0] ∧
      (ofSource source).diagnostics.map Diagnostic.message =
        pieces.filterMap Piece.complaint? := by
  have found : (Cursor.start source).pieces.map Prod.snd = pieces := spaced.pieces rfl
  rw [tokens_unlined, diagnostics_message, found]
  exact ⟨rfl, rfl⟩

/-- Tokens that are written with one space between each two of them are scanned again,
and nothing is reported. -/
theorem Scan.ofSource_spell {tokens : List Token}
    (wellFormed : ∀ token ∈ tokens, token.WellFormed) :
    (Scan.ofSource (Token.spell tokens)).tokens.map Token.unlined =
        tokens.map Token.unlined ++ [Token.endAt 0] ∧
      (Scan.ofSource (Token.spell tokens)).diagnostics = [] := by
  obtain ⟨scanned, reported⟩ := ofSource_spaced (Token.spaced_pieces wellFormed)
  rw [Token.written?_pieces] at scanned
  rw [Token.complaint?_pieces] at reported
  exact ⟨scanned, List.map_eq_nil_iff.mp reported⟩

/-- The tokens of a scan are well formed but for the last one, which marks the end. -/
theorem Scan.tokens_concat (source : String) :
    ∃ words line, (ofSource source).tokens = words ++ [Token.endAt line] ∧
      ∀ token ∈ words, token.WellFormed := by
  refine ⟨_, _, rfl, ?_⟩
  intro token member
  obtain ⟨⟨cursor, piece⟩, located, isToken⟩ := List.mem_filterMap.mp member
  obtain ⟨after, fits⟩ := (Cursor.start source).pieces_divide.fits piece
    (List.mem_map_of_mem located)
  exact fits.wellFormed isToken

end Reckon
