import Reckon.Proofs.Token.Scanner

/-!
# Tokens among blanks and comments

Blanks and comments may stand between tokens. A text that is woven of tokens and of
separators that begin with a blank is scanned to these very tokens, whatever comments
there are in the separators. Conversely all tokens that a scan gives can be written out
again, so what is scanned once can be scanned again.
-/

namespace Reckon

namespace Piece

/-- What may stand between tokens: blanks, line comments with the line feeds that end
them, and whole block comments. -/
inductive Trivia : List Char → Prop where
  | nil : Trivia []
  | blank {character : Char} {rest : List Char} :
      character ∈ blanks → Trivia rest → Trivia (character :: rest)
  | lineComment {body rest : List Char} :
      '\n' ∉ body → Trivia rest → Trivia ('/' :: '/' :: (body ++ '\n' :: rest))
  | blockComment {body rest : List Char} :
      ClosesComment body → Trivia rest → Trivia ('/' :: '*' :: (body ++ rest))

/-- What keeps a token apart from the next one. -/
structure Separator (text : List Char) : Prop where
  trivia : Trivia text
  begins : ∃ blank ∈ blanks, text.head? = some blank

/-- Pieces that are neither tokens nor complained about. -/
def Silent (pieces : List Piece) : Prop :=
  pieces.filterMap written? = [] ∧ pieces.filterMap complaint? = []

theorem Silent.cons {piece : Piece} {pieces : List Piece} (silent : Silent pieces)
    (unwritten : piece.written? = none) (uncomplained : piece.complaint? = none) :
    Silent (piece :: pieces) := by
  constructor
  · rw [List.filterMap_cons_none unwritten, silent.1]
  · rw [List.filterMap_cons_none uncomplained, silent.2]

/-- A piece that is no token may stand before any piece. -/
theorem Spaced.cons_silent {piece : Piece} {after : List Char} {pieces : List Piece}
    (spaced : Spaced after pieces) (fits : piece.Fits after) (unwritten : piece.written? = none) :
    Spaced (piece.text ++ after) (piece :: pieces) :=
  .cons fits (fun written => by rw [unwritten] at written; cases written) spaced

theorem Trivia.spaced {text after : List Char} {pieces : List Piece} (trivia : Trivia text)
    (spaced : Spaced after pieces) :
    ∃ silent, Silent silent ∧ Spaced (text ++ after) (silent ++ pieces) := by
  induction trivia with
  | nil => exact ⟨[], ⟨rfl, rfl⟩, spaced⟩
  | @blank character rest isBlank _ ih =>
      obtain ⟨silent, isSilent, spaced⟩ := ih
      exact ⟨.blank character :: silent, isSilent.cons rfl rfl,
        spaced.cons_silent (.blank isBlank) rfl⟩
  | @lineComment body rest oneLine _ ih =>
      obtain ⟨silent, isSilent, spaced⟩ := ih
      have lineFeed : (Piece.blank '\n').Fits (rest ++ after) := .blank (by decide)
      have ended := spaced.cons_silent lineFeed rfl
      have comment : (Piece.lineComment ('/' :: '/' :: body)).Fits ('\n' :: (rest ++ after)) :=
        .lineComment oneLine (by simp)
      have whole := ended.cons_silent comment rfl
      refine ⟨.lineComment ('/' :: '/' :: body) :: .blank '\n' :: silent,
        (isSilent.cons rfl rfl).cons rfl rfl, ?_⟩
      simpa [Piece.text] using whole
  | @blockComment body rest closes _ ih =>
      obtain ⟨silent, isSilent, spaced⟩ := ih
      have whole := spaced.cons_silent (.blockComment closes) rfl
      refine ⟨.blockComment ('/' :: '*' :: body) :: silent, isSilent.cons rfl rfl, ?_⟩
      simpa [Piece.text] using whole

end Piece

namespace Token

/-- A text of tokens, each with the separator behind it, and a first separator. -/
def weave (lead : List Char) (written : List (Token × List Char)) : List Char :=
  lead ++ written.flatMap fun entry => entry.1.lexeme.toList ++ entry.2

variable {lead : List Char} {written : List (Token × List Char)}

theorem weave_cons (lead : List Char) (entry : Token × List Char)
    (written : List (Token × List Char)) :
    weave lead (entry :: written) =
      lead ++ (entry.1.lexeme.toList ++ weave entry.2 written) := by
  simp only [weave, List.flatMap_cons, List.append_assoc]

theorem weave_apart (separator : Piece.Separator lead) (written : List (Token × List Char)) :
    Piece.Apart (weave lead written) := by
  obtain ⟨blank, isBlank, head⟩ := separator.begins
  obtain ⟨rest, rfl⟩ := List.head?_eq_some_iff.mp head
  intro character first
  cases first
  exact isBlank

theorem spaced_weave (trivia : Piece.Trivia lead)
    (separated : ∀ entry ∈ written, entry.1.WellFormed ∧ Piece.Separator entry.2) :
    ∃ pieces, Piece.Spaced (weave lead written) pieces ∧
      pieces.filterMap Piece.written? = written.map (·.1.unlined) ∧
      pieces.filterMap Piece.complaint? = [] := by
  induction written generalizing lead with
  | nil =>
      obtain ⟨silent, isSilent, spaced⟩ := trivia.spaced .nil
      rw [List.append_nil silent] at spaced
      exact ⟨silent, spaced, isSilent⟩
  | cons entry written ih =>
      obtain ⟨⟨form, separator⟩, separated⟩ := List.forall_mem_cons.mp separated
      obtain ⟨pieces, spaced, isWritten, silence⟩ := ih separator.trivia separated
      have withToken : Piece.Spaced _ (entry.1.piece :: pieces) :=
        .cons (.token form) (fun _ => weave_apart separator written) spaced
      obtain ⟨silent, isSilent, whole⟩ := trivia.spaced withToken
      rw [weave_cons]
      refine ⟨silent ++ entry.1.piece :: pieces, whole, ?_, ?_⟩
      · rw [List.filterMap_append, isSilent.1, List.filterMap_cons, written?_piece, isWritten]
        rfl
      · rw [List.filterMap_append, isSilent.2, List.filterMap_cons, silence]
        rfl

/-- Tokens and a mark of the end, spelled with spaces between them, have a space behind each. -/
theorem spaced_spell_concat {words : List Token} (wellFormed : ∀ word ∈ words, word.WellFormed)
    (line : Nat) :
    Piece.Spaced (spell (words ++ [endAt line])).toList
      (words.flatMap fun word => [word.piece, .blank ' ']) := by
  induction words with
  | nil => exact .nil
  | cons word words ih =>
      obtain ⟨form, forms⟩ := List.forall_mem_cons.mp wellFormed
      obtain ⟨next, rest, split⟩ := List.exists_cons_of_ne_nil
        (List.append_ne_nil_of_right_ne_nil words (List.cons_ne_nil (endAt line) []))
      rw [List.cons_append, split, spell_cons, ← split, List.append_assoc]
      refine .cons (.token form) (fun _ character head => ?_)
        (.cons (.blank (by decide)) nofun (ih forms))
      cases head
      decide

theorem written?_spell_concat (words : List Token) :
    (words.flatMap fun word => [word.piece, Piece.blank ' ']).filterMap Piece.written? =
      words.map unlined := by
  induction words with
  | nil => rfl
  | cons word words ih =>
      rw [List.flatMap_cons, List.filterMap_append, ih, List.filterMap_cons, written?_piece]
      rfl

theorem complaint?_spell_concat (words : List Token) :
    (words.flatMap fun word => [word.piece, Piece.blank ' ']).filterMap Piece.complaint? = [] := by
  induction words with
  | nil => rfl
  | cons word words ih =>
      rw [List.flatMap_cons, List.filterMap_append, ih]
      rfl

end Token

namespace Cursor

variable {overflow : Overflow} {words : List Token}

theorem shallow_spell (wellFormed : ∀ word ∈ words, word.WellFormed) :
    (start (Token.spell words)).Shallow overflow := by
  rw [shallow_iff, (Token.spaced_pieces wellFormed).pieces rfl]
  intro piece member
  clear wellFormed
  fun_induction Token.pieces words with
  | case1 => cases member
  | case2 token =>
      obtain rfl := List.mem_singleton.mp member
      exact Nat.zero_le _
  | case3 token next rest ih =>
      rcases List.mem_cons.mp member with rfl | member
      · exact Nat.zero_le _
      rcases List.mem_cons.mp member with rfl | member
      · exact Nat.zero_le _
      exact ih member

theorem shallow_spell_concat (wellFormed : ∀ word ∈ words, word.WellFormed) (line : Nat) :
    (start (Token.spell (words ++ [Token.endAt line]))).Shallow overflow := by
  rw [shallow_iff, (Token.spaced_spell_concat wellFormed line).pieces rfl]
  simp only [List.mem_flatMap, List.mem_cons, List.not_mem_nil, or_false]
  rintro piece ⟨word, -, rfl | rfl⟩ <;> exact Nat.zero_le _

end Cursor

namespace Scan

/-- A scan gives tokens and a mark of the end, whatever their lines, and nothing is
reported. -/
structure Gives (scan : Scan) (tokens : List Token) : Prop where
  tokens : scan.tokens.map Token.unlined = tokens.map Token.unlined ++ [Token.endAt 0]
  silent : scan.diagnostics = []

variable {lead : List Char} {written : List (Token × List Char)}

theorem gives_weave {source : String} (woven : source.toList = Token.weave lead written)
    (trivia : Piece.Trivia lead)
    (separated : ∀ entry ∈ written, entry.1.WellFormed ∧ Piece.Separator entry.2) :
    (ofSource source).Gives (written.map Prod.fst) := by
  obtain ⟨pieces, spaced, isWritten, silence⟩ := Token.spaced_weave trivia separated
  obtain ⟨scanned, reported⟩ := ofSource_spaced (woven ▸ spaced)
  constructor
  · rw [scanned, isWritten, List.map_map]
    rfl
  · rw [silence] at reported
    exact List.map_eq_nil_iff.mp reported

theorem gives_spell {words : List Token} (wellFormed : ∀ word ∈ words, word.WellFormed)
    (line : Nat) :
    (ofSource (Token.spell words)).Gives words ∧
      (ofSource (Token.spell (words ++ [Token.endAt line]))).Gives words := by
  constructor
  · obtain ⟨scanned, silent⟩ := ofSource_spell wellFormed
    exact ⟨scanned, silent⟩
  · obtain ⟨scanned, reported⟩ := ofSource_spaced (Token.spaced_spell_concat wellFormed line)
    rw [Token.written?_spell_concat] at scanned
    rw [Token.complaint?_spell_concat] at reported
    exact ⟨scanned, List.map_eq_nil_iff.mp reported⟩

end Scan

namespace Scanner

/-- A text is scanned to tokens and a mark of the end, whatever their lines, and nothing is
reported. -/
def Gives (overflow : Overflow) (source : String) (tokens : List Token) : Prop :=
  ∀ log, ∃ found, scan overflow log source = pure (found, log) ∧
    found.map Token.unlined = tokens.map Token.unlined ++ [Token.endAt 0]

theorem gives_of_shallow {overflow : Overflow} {source : String} {tokens : List Token}
    (shallow : (Cursor.start source).Shallow overflow)
    (gives : (Scan.ofSource source).Gives tokens) : Gives overflow source tokens := by
  intro log
  refine ⟨_, ?_, gives.tokens⟩
  rw [scan_eq log shallow, gives.silent]
  rfl

/-- Writing and scanning are inverse to each other. Well-formed tokens that are woven with
separators are scanned, as long as the comments in the separators are not too deep, and only
such tokens are scanned from any text. So all that a scan gives is scanned again from its
lexemes with spaces between them, the empty one of the mark of the end included or left out. -/
theorem weave_and_spell (overflow : Overflow) :
    (∀ lead written, Piece.Trivia lead →
      (∀ entry ∈ written, entry.1.WellFormed ∧ Piece.Separator entry.2) →
      (Cursor.start (String.ofList (Token.weave lead written))).Shallow overflow →
      Gives overflow (String.ofList (Token.weave lead written)) (written.map Prod.fst)) ∧
    ∀ log source tokens later, scan overflow log source = pure (tokens, later) →
      (∀ token ∈ tokens, token.kind ≠ .eof → token.WellFormed) ∧
        ∀ text ∈ [Token.spell tokens, Token.spell tokens.dropLast], ∀ log,
          ∃ again, scan overflow log text = pure (again, log) ∧
            again.map Token.unlined = tokens.map Token.unlined := by
  constructor
  · intro lead written trivia separated shallow
    exact gives_of_shallow shallow (Scan.gives_weave String.toList_ofList trivia separated)
  intro log source tokens later scanned
  obtain ⟨words, line, rfl, wellFormed⟩ := tokens_of_scan scanned
  obtain ⟨short, long⟩ := Scan.gives_spell wellFormed line
  have same : (words ++ [Token.endAt line]).map Token.unlined =
      words.map Token.unlined ++ [Token.endAt 0] := by
    rw [List.map_append]
    rfl
  rw [List.dropLast_concat, same]
  refine ⟨fun token member more => ?_, List.forall_mem_cons.mpr
    ⟨gives_of_shallow (Cursor.shallow_spell_concat wellFormed line) long,
      List.forall_mem_singleton.mpr (gives_of_shallow (Cursor.shallow_spell wellFormed) short)⟩⟩
  rcases List.mem_append.mp member with word | ends
  · exact wellFormed token word
  · obtain rfl := List.mem_singleton.mp ends
    exact absurd rfl more

/-- Marks that would run into each other, and into the comments between them, are kept
apart by a blank. -/
theorem weave_and_spell_marks :
    let written : List (Token × List Char) :=
      [(⟨.bang, "!", none, 0⟩, ['\n', '/', '/', '"', '/', '*', '\n']),
       (⟨.equal, "=", none, 0⟩, ['\t', '/', '*', '/', '*', '"', '*', '/', '*', '/']),
       (⟨.string, "\"/*\"", some (.text "/*"), 0⟩, [' '])]
    let source := "12.and\n\""
    let tokens := (Scan.ofSource source).tokens
    (Piece.Trivia [] ∧
      (∀ entry ∈ written, entry.1.WellFormed ∧ Piece.Separator entry.2) ∧
      (Cursor.start (String.ofList (Token.weave [] written))).Shallow .panics ∧
      Gives .panics (String.ofList (Token.weave [] written)) (written.map Prod.fst)) ∧
    (∃ later, scan .wraps .empty source = pure (tokens, later)) ∧
      (∀ token ∈ tokens, token.kind ≠ .eof → token.WellFormed) ∧
      ∀ text ∈ [Token.spell tokens, Token.spell tokens.dropLast], ∀ log,
        ∃ again, scan .wraps log text = pure (again, log) ∧
          again.map Token.unlined = tokens.map Token.unlined := by
  intro written source tokens
  have comment : Piece.ClosesComment ['/', '*', '"', '*', '/', '*', '/'] :=
    (Piece.closeComment_eq_some_iff.mp (by rfl : Piece.closeComment 0
      ['/', '*', '"', '*', '/', '*', '/'] = some ['/', '*', '"', '*', '/', '*', '/'])).1
  have separated : ∀ entry ∈ written, entry.1.WellFormed ∧ Piece.Separator entry.2 := by
    simp only [written, List.forall_mem_cons]
    refine ⟨⟨?_, ?_⟩, ⟨?_, ?_⟩, ⟨?_, ?_⟩, List.forall_mem_nil _⟩
    · exact Lexeme.fixed rfl
    · have body : '\n' ∉ ['"', '/', '*'] := by decide
      exact ⟨.blank (by decide) (.lineComment body .nil), '\n', by decide, rfl⟩
    · exact Lexeme.fixed rfl
    · exact ⟨.blank (by decide) (.blockComment comment .nil), '\t', by decide, rfl⟩
    · exact @Lexeme.string ['/', '*'] (by decide)
    · exact ⟨.blank (by decide) .nil, ' ', by decide, rfl⟩
  have shallow : (Cursor.start (String.ofList (Token.weave [] written))).Shallow .panics :=
    Cursor.shallow_of_length _ _ (by decide)
  have scanned := scan_eq .empty (Cursor.shallow_of_length .wraps (Cursor.start source) (by decide))
  exact ⟨⟨.nil, separated, shallow, (weave_and_spell .panics).1 _ _ .nil separated shallow⟩,
    ⟨_, scanned⟩, (weave_and_spell .wraps).2 _ _ _ _ scanned⟩

/-- A blank and a whole comment, two billion deep, are a panic where overflow is one. -/
theorem not_weave_and_spell :
    let lead := ' ' :: '/' :: '*' :: (Piece.openings (2 ^ 31 - 1) ++ Piece.closings (2 ^ 31))
    Piece.Separator lead ∧
      ∀ log, scan .panics log (String.ofList (Token.weave lead [])) = throw .overflow := by
  intro lead
  have closes : Piece.ClosesComment (Piece.openings (2 ^ 31 - 1) ++ Piece.closings (2 ^ 31)) :=
    Piece.closesComment_openings (2 ^ 31 - 1)
  have separator : Piece.Separator lead := by
    refine ⟨.blank (by decide) ?_, ' ', by decide, rfl⟩
    simpa using Piece.Trivia.blockComment closes .nil
  have text : (String.ofList (Token.weave lead [])).toList = lead := by
    rw [String.toList_ofList, Token.weave, List.flatMap_nil, List.append_nil]
  have deep := Piece.le_deepest_openings (2 ^ 31 - 1) (Piece.closings (2 ^ 31))
  exact ⟨separator, fun log => scan_panics log (Cursor.not_shallow_of_blank text deep)⟩

end Scanner

end Reckon
