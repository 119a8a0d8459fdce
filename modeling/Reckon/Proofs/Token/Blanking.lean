import Reckon.Proofs.Token.LongestMatch
import Reckon.Proofs.Token.Onward

/-!
# Blanking out

A character that cannot be read is reported and passed over. This module proves that it then
has no part in the scan: a text with a blank in the place of each such character is scanned to
the same tokens on the same lines, and is complained about for the same other reasons.
-/

namespace Reckon

namespace Piece

/-! ## Texts with blanks in them -/

/-- A character that nothing but a complaint begins with. -/
def IsUnexpected (character : Char) : Prop :=
  character ∉ blanks ∧ character ∉ marks ∧ ¬character.isDigit ∧ ¬character.isAlpha ∧
    character ≠ '_'

/-- A text, and the text with blanks in the place of some characters that cannot be read. -/
inductive Blanked : List Char → List Char → Prop where
  | nil : Blanked [] []
  | keep {character : Char} {rest rest' : List Char} :
      Blanked rest rest' → Blanked (character :: rest) (character :: rest')
  | blank {character : Char} {rest rest' : List Char} :
      IsUnexpected character → Blanked rest rest' → Blanked (character :: rest) (' ' :: rest')

variable {first : Char} {rest rest' after after' text left : List Char} {pieces : List Piece}

theorem IsUnexpected.ne_lineFeed (unexpected : IsUnexpected first) : first ≠ '\n' := by
  rintro rfl
  exact unexpected.1 (by decide)

/-- A text with blanks in it has the same lines. -/
theorem Blanked.lineBehind_eq (blanked : Blanked text left) :
    lineBehind left = lineBehind text := by
  rw [lineBehind, lineBehind]
  induction blanked with
  | nil => rfl
  | keep _ ih => rw [List.count_cons, List.count_cons, ← Nat.add_assoc, ← Nat.add_assoc, ih]
  | blank unexpected _ ih => simpa [unexpected.ne_lineFeed] using ih

theorem Blanked.append (front : List Char) (blanked : Blanked rest rest') :
    Blanked (front ++ rest) (front ++ rest') := by
  induction front with
  | nil => exact blanked
  | cons character front ih => exact .keep ih

theorem Blanked.span (accepts : Char → Bool) (noBlank : accepts ' ' = false)
    (refused : ∀ character, IsUnexpected character → accepts character = false)
    (blanked : Blanked rest rest') :
    rest'.takeWhile accepts = rest.takeWhile accepts ∧
      Blanked (rest.dropWhile accepts) (rest'.dropWhile accepts) := by
  induction blanked with
  | nil => exact ⟨rfl, .nil⟩
  | @keep character rest rest' blanked ih =>
      cases accepted : accepts character with
      | true => simpa [accepted] using ih
      | false => simpa [accepted] using blanked.keep
  | @blank character rest rest' unexpected blanked _ =>
      have stops := refused character unexpected
      simpa [stops, noBlank] using blanked.blank unexpected

theorem IsUnexpected.not_isDigit (unexpected : IsUnexpected first) : first.isDigit = false :=
  Bool.eq_false_iff.mpr unexpected.2.2.1

theorem IsUnexpected.not_continuesWord (unexpected : IsUnexpected first) :
    continuesWord first = false := by
  obtain ⟨-, -, noDigit, noLetter, noUnderscore⟩ := unexpected
  simp [continuesWord, Char.isAlphanum, noDigit, noLetter, noUnderscore]

theorem IsUnexpected.ne_mark (unexpected : IsUnexpected first) (mark : Char)
    (member : mark ∈ marks) : first ≠ mark := by
  rintro rfl
  exact unexpected.2.1 member

/-! ## Reading before blanks -/

theorem word_blanked (first : Char) (blanked : Blanked rest rest') :
    word first rest' = word first rest := by
  have span := blanked.span continuesWord (by decide) fun _ => IsUnexpected.not_continuesWord
  rw [word, word, span.1]

theorem numeral_blanked (first : Char) (blanked : Blanked rest rest') :
    numeral first rest' = numeral first rest := by
  have digits : ∀ {rest rest'}, Blanked rest rest' →
      rest'.takeWhile Char.isDigit = rest.takeWhile Char.isDigit ∧
        Blanked (rest.dropWhile Char.isDigit) (rest'.dropWhile Char.isDigit) :=
    Blanked.span Char.isDigit (by decide) fun _ => IsUnexpected.not_isDigit
  obtain ⟨taken, dropped⟩ := digits blanked
  rw [numeral, numeral, taken]
  generalize rest.dropWhile Char.isDigit = behind at dropped
  generalize rest'.dropWhile Char.isDigit = behind' at dropped
  cases dropped with
  | nil => rfl
  | @keep point fraction fraction' blanked =>
      by_cases isPoint : point = '.'
      · simp only [isPoint, (digits blanked).1]
      · simp [isPoint]
  | blank unexpected _ => simp [unexpected.ne_mark '.' (by decide)]

theorem orEqual_blanked (single withEqual : Kind) (first : Char) (blanked : Blanked rest rest') :
    orEqual single withEqual first rest' = orEqual single withEqual first rest := by
  cases blanked with
  | nil => rfl
  | @keep second _ _ _ =>
      by_cases equal : second = '='
      · rw [equal]
        rfl
      · simp [orEqual, equal]
  | blank unexpected _ => simp [orEqual, unexpected.ne_mark '=' (by decide)]

theorem afterSlash_blanked (isToken : (afterSlash rest).written?.isSome)
    (blanked : Blanked rest rest') : afterSlash rest' = afterSlash rest := by
  cases blanked with
  | nil => rfl
  | @keep second rest _ _ =>
      by_cases line : second = '/'
      · subst line
        cases isToken
      · by_cases block : second = '*'
        · subst block
          rw [afterSlash] at isToken
          split at isToken <;> cases isToken
        · simp [afterSlash, line, block]
  | blank unexpected _ =>
      simp [afterSlash, unexpected.ne_mark '/' (by decide),
        unexpected.ne_mark '*' (by decide)]

theorem afterQuote_closed {inside : List Char}
    (isToken : (afterQuote (inside ++ after)).written?.isSome)
    (whole : (afterQuote (inside ++ after)).text = '"' :: inside) (after' : List Char) :
    afterQuote (inside ++ after') = afterQuote (inside ++ after) := by
  by_cases quoted : '"' ∈ inside ++ after
  · obtain ⟨content, behind, same, unquoted⟩ := List.eq_append_cons_of_mem quoted
    rw [same, afterQuote_eq unquoted] at whole ⊢
    obtain rfl : content ++ ['"'] = inside := (List.cons.inj whole).2
    rw [List.append_assoc]
    exact afterQuote_eq unquoted
  · have taken := (Text.span_exact [] (Text.bne_of_notMem quoted) (by simp)).1
    rw [List.append_nil] at taken
    rw [afterQuote, taken, if_pos rfl] at isToken
    cases isToken

theorem read_blanked_of_token (isToken : (read first rest).written?.isSome)
    (noQuote : first ≠ '"') (blanked : Blanked rest rest') :
    read first rest' = read first rest := by
  refine read_congr (numeral_blanked first blanked) (word_blanked first blanked)
    (fun _ _ => orEqual_blanked _ _ first blanked) ?_ (absurd · noQuote)
  rintro rfl
  exact afterSlash_blanked isToken blanked

theorem Fits.blanked {piece : Piece} (fits : piece.Fits after) (blanked : Blanked after after') :
    piece.Fits after' := by
  cases fits with
  | token lexeme => exact .token lexeme
  | blank member => exact .blank member
  | lineComment oneLine ends =>
      refine .lineComment oneLine ?_
      cases blanked with
      | nil => exact ends
      | keep _ => exact ends
      | blank unexpected _ =>
          obtain rfl := ends _ rfl
          exact absurd (by decide) unexpected.1
  | blockComment closes => exact .blockComment closes
  | unexpected noBlank noMark noDigit noLetter noUnderscore =>
      exact .unexpected noBlank noMark noDigit noLetter noUnderscore
  | openString unquoted =>
      cases blanked
      exact .openString unquoted
  | openComment unclosed =>
      cases blanked
      exact .openComment unclosed

theorem read_blanked (split : first :: rest = (read first rest).text ++ after)
    (blanked : Blanked after after') :
    ∃ rest', first :: rest' = (read first rest).text ++ after' ∧
      read first rest' = read first rest := by
  have fits := fits_of_split split
  cases written : (read first rest).written? with
  | none =>
      have unwritten : (read first rest).written?.isSome → Apart after' := by simp [written]
      obtain ⟨first', inside, text, again⟩ := (fits.blanked blanked).read unwritten
      rw [text] at split ⊢
      obtain rfl : first = first' := (List.cons.inj split).1
      exact ⟨inside ++ after', rfl, again⟩
  | some token =>
      have isToken : (read first rest).written?.isSome := by simp [written]
      obtain ⟨first', inside, text⟩ := List.exists_cons_of_ne_nil fits.text_ne_nil
      rw [text] at split ⊢
      obtain ⟨rfl, rfl⟩ := List.cons.inj split
      refine ⟨inside ++ after', rfl, ?_⟩
      by_cases quote : first = '"'
      · subst quote
        exact afterQuote_closed isToken text after'
      · exact read_blanked_of_token isToken quote (blanked.append inside)

/-! ## Blanks in the place of pieces -/

/-- A piece, or a blank in the place of a character that cannot be read. -/
def blankOut : Piece → Piece
  | .unexpected _ => .blank ' '
  | piece => piece

theorem blankOut_eq_self {piece : Piece} (expected : ∀ character, piece ≠ .unexpected character) :
    piece.blankOut = piece := by
  cases piece with
  | unexpected character => exact absurd rfl (expected character)
  | _ => rfl

/-- The pieces of a text are read again if there are blanks in the place of those that cannot
be read. -/
theorem Reads.blankOut (reads : Reads text pieces left) {left' : List Char}
    (blanked : Blanked left left') :
    ∃ text', Blanked text text' ∧ Reads text' (pieces.map Piece.blankOut) left' := by
  induction reads with
  | done => exact ⟨left', blanked, .done⟩
  | @more first rest after left pieces split _ ih =>
      obtain ⟨after', blankedAfter, readsAfter⟩ := ih blanked
      rw [List.map_cons]
      by_cases expected : ∀ character, read first rest ≠ .unexpected character
      · obtain ⟨rest', whole, again⟩ := read_blanked split blankedAfter
        rw [blankOut_eq_self expected]
        refine ⟨first :: rest', ?_, ?_⟩
        · rw [split, whole]
          exact blankedAfter.append _
        · rw [← again] at whole ⊢
          exact .more whole readsAfter
      · simp only [ne_eq, not_forall, not_not] at expected
        obtain ⟨character, isUnexpected⟩ := expected
        have fits := fits_of_split split
        rw [isUnexpected] at split fits ⊢
        obtain ⟨rfl, rfl⟩ : first = character ∧ rest = after := List.cons.inj split
        cases fits with
        | unexpected noBlank noMark noDigit noLetter noUnderscore =>
            exact ⟨' ' :: after',
              .blank ⟨noBlank, noMark, noDigit, noLetter, noUnderscore⟩ blankedAfter,
              .more rfl readsAfter⟩

/-- No line feed is lost with a character that cannot be read. -/
theorem Fits.count_blankOut {piece : Piece} (fits : piece.Fits after) :
    piece.blankOut.text.count '\n' = piece.text.count '\n' := by
  cases fits with
  | @unexpected character _ noBlank noMark noDigit noLetter noUnderscore =>
      have unexpected : IsUnexpected character :=
        ⟨noBlank, noMark, noDigit, noLetter, noUnderscore⟩
      have noLineFeed : [character].count '\n' = 0 := by simp [unexpected.ne_lineFeed]
      exact noLineFeed.symm
  | token | blank | lineComment | blockComment | openString | openComment => rfl

/-- What is found at places by their lines is found again with blanks in the place of what
cannot be read. -/
theorem filterMap_placed_blankOut {α : Type} {find find' : List Char × Piece → Option α}
    (same : ∀ before before' piece, lineBehind before' = lineBehind before →
      find' (before', piece.blankOut) = find (before, piece))
    (counts : ∀ piece ∈ pieces, piece.blankOut.text.count '\n' = piece.text.count '\n')
    {before before' : List Char} (line : lineBehind before' = lineBehind before) :
    (placed before' (pieces.map Piece.blankOut)).filterMap find' =
      (placed before pieces).filterMap find := by
  induction pieces generalizing before before' with
  | nil => rfl
  | cons piece pieces ih =>
      obtain ⟨count, counts⟩ := List.forall_mem_cons.mp counts
      have next : lineBehind (before' ++ piece.blankOut.text) =
          lineBehind (before ++ piece.text) := by
        rw [lineBehind_append, lineBehind_append, lineBehind, lineBehind, count]
        simp only [lineBehind] at line
        omega
      rw [List.map_cons, placed, placed, List.filterMap_cons, List.filterMap_cons,
        same before before' piece line, ih counts next]

end Piece

/-- A diagnostic that complains about a character that cannot be read. -/
def Diagnostic.isUnexpected (diagnostic : Diagnostic) : Bool :=
  "Unexpected character: ".toList.isPrefixOf diagnostic.message.toList

namespace Piece

variable {source source' before before' : List Char}

theorem isUnexpected_of_diagnosticAt? {piece : Piece} {diagnostic : Diagnostic}
    (complains : piece.diagnosticAt? source before = some diagnostic) :
    diagnostic.isUnexpected = true ↔ ∃ character, piece = .unexpected character := by
  cases piece with
  | unexpected character =>
      cases complains
      have begins : "Unexpected character: ".toList.isPrefixOf
          ("Unexpected character: " ++ String.singleton character).toList = true := by
        rw [String.toList_append, List.isPrefixOf_iff_prefix]
        exact List.prefix_append _ _
      exact ⟨fun _ => ⟨character, rfl⟩, fun _ => begins⟩
  | openString text =>
      cases complains
      have other : "Unexpected character: ".toList.isPrefixOf
          "Unterminated string.".toList = false := by decide
      exact ⟨fun begins => absurd (other.symm.trans begins) Bool.false_ne_true, nofun⟩
  | openComment text =>
      cases complains
      have other : "Unexpected character: ".toList.isPrefixOf
          "Unterminated block comment.".toList = false := by decide
      exact ⟨fun begins => absurd (other.symm.trans begins) Bool.false_ne_true, nofun⟩
  | token | blank | lineComment | blockComment => cases complains

theorem tokenAt?_blankOut (piece : Piece) (line : lineBehind before' = lineBehind before) :
    piece.blankOut.tokenAt? before' = piece.tokenAt? before := by
  rw [tokenAt?, tokenAt?, line]
  cases piece <;> rfl

theorem diagnosticAt?_blankOut (piece : Piece) (line : lineBehind before' = lineBehind before)
    (last : lineBehind source' = lineBehind source) :
    piece.blankOut.diagnosticAt? source' before' =
      (piece.diagnosticAt? source before).filter (! ·.isUnexpected) := by
  cases complains : piece.diagnosticAt? source before with
  | none =>
      cases piece with
      | unexpected | openString | openComment => cases complains
      | token | blank | lineComment | blockComment => rfl
  | some diagnostic =>
      have told := isUnexpected_of_diagnosticAt? complains
      by_cases unexpected : ∃ character, piece = .unexpected character
      · rw [Option.filter_some, told.mpr unexpected]
        obtain ⟨character, rfl⟩ := unexpected
        rfl
      · rw [Option.filter_some, Bool.eq_false_iff.mpr (unexpected ∘ told.mp), ← complains,
          blankOut_eq_self (not_exists.mp unexpected), diagnosticAt?, diagnosticAt?]
        cases piece <;> simp only [beforeFault, line, last] <;> rfl

/-! ## Places of what cannot be read -/

/-- The number of characters before each character that cannot be read. -/
def unexpectedAt (places : List (List Char × Piece)) : List Nat :=
  places.filterMap fun place =>
    match place.2 with
    | .unexpected _ => some place.1.length
    | _ => none

theorem mem_unexpectedAt_iff {places : List (List Char × Piece)} {index : Nat} :
    index ∈ unexpectedAt places ↔
      ∃ before character, (before, .unexpected character) ∈ places ∧ before.length = index := by
  rw [unexpectedAt, List.mem_filterMap]
  constructor
  · rintro ⟨⟨before, piece⟩, member, found⟩
    cases piece with
    | unexpected character => exact ⟨before, character, member, Option.some.inj found⟩
    | _ => cases found
  · rintro ⟨before, character, member, rfl⟩
    exact ⟨_, member, rfl⟩

theorem unexpectedAt_cons (start : List Char) {piece : Piece}
    (expected : ∀ character, piece ≠ .unexpected character) (pieces : List Piece) :
    unexpectedAt (placed start (piece :: pieces)) =
      unexpectedAt (placed (start ++ piece.text) pieces) := by
  cases piece with
  | unexpected character => exact absurd rfl (expected character)
  | _ => rfl

theorem le_of_mem_unexpectedAt {start : List Char} {pieces : List Piece} {index : Nat}
    (member : index ∈ unexpectedAt (placed start pieces)) : start.length ≤ index := by
  obtain ⟨before, character, isPlaced, rfl⟩ := mem_unexpectedAt_iff.mp member
  exact (prefix_of_mem_placed_start isPlaced).length_le

/-- A text with blanks at the places of what cannot be read is that of the pieces with blanks
in their places. -/
theorem mapIdx_unexpectedAt (start : List Char) (pieces : List Piece) :
    (pieces.flatMap Piece.text).mapIdx (fun index character =>
        if start.length + index ∈ unexpectedAt (placed start pieces) then ' ' else character) =
      (pieces.map Piece.blankOut).flatMap Piece.text := by
  induction pieces generalizing start with
  | nil => rfl
  | cons piece pieces ih =>
      have shift : ∀ index, (start ++ piece.text).length + index =
          start.length + (index + piece.text.length) := by
        intro index
        rw [List.length_append]
        omega
      have others := ih (start ++ piece.text)
      simp only [shift] at others
      rw [List.map_cons, List.flatMap_cons, List.flatMap_cons, List.mapIdx_append, ← others]
      by_cases expected : ∀ character, piece ≠ .unexpected character
      · rw [unexpectedAt_cons start expected, blankOut_eq_self expected]
        congr 1
        rw [List.mapIdx_eq_iff]
        intro index
        cases found : piece.text[index]? with
        | none => rfl
        | some character =>
            have inside := (List.getElem?_eq_some_iff.mp found).1
            rw [Option.map_some, if_neg]
            intro member
            have behind := le_of_mem_unexpectedAt member
            rw [List.length_append] at behind
            omega
      · simp only [ne_eq, not_forall, not_not] at expected
        obtain ⟨character, rfl⟩ := expected
        have first : unexpectedAt (placed start (.unexpected character :: pieces)) =
            start.length :: unexpectedAt (placed (start ++ [character]) pieces) := rfl
        simp [first, blankOut, Piece.text]

end Piece

namespace Scan

variable (source : String)

/-- The places of the characters of a text that its scan reports as unexpected. -/
def unexpectedAt : List Nat := Piece.unexpectedAt (placed source)

/-- A text with one space in the place of every character that its scan reports as
unexpected. -/
def blankOut : String :=
  String.ofList (source.toList.mapIdx fun index character =>
    if index ∈ unexpectedAt source then ' ' else character)

/-- What a scan reports about a character that cannot be read. -/
def reportAt (index : Nat) : Diagnostic :=
  ⟨.lexical, lineBehind (source.toList.take index), .unspecified,
    "Unexpected character: " ++ String.ofList source.toList[index]?.toList⟩

theorem toList_blankOut :
    (blankOut source).toList =
      (((Cursor.start source).pieces.map Prod.snd).map Piece.blankOut).flatMap Piece.text := by
  have text : ((Cursor.start source).pieces.map Prod.snd).flatMap Piece.text = source.toList :=
    (Cursor.start source).pieces_divide.flatMap_text
  have blanks := Piece.mapIdx_unexpectedAt [] ((Cursor.start source).pieces.map Prod.snd)
  simp only [text, List.length_nil, Nat.zero_add] at blanks
  rw [blankOut, String.toList_ofList, ← blanks]
  rfl

/-- A text with blanks in it is read to the same pieces but for these blanks. -/
theorem reads_blankOut :
    Piece.Blanked source.toList (blankOut source).toList ∧
      Piece.Reads (blankOut source).toList
        (((Cursor.start source).pieces.map Prod.snd).map Piece.blankOut) [] := by
  obtain ⟨text, blanked, reads⟩ := (Cursor.start source).reads.blankOut .nil
  have whole := reads.flatMap_text
  rw [List.append_nil, ← toList_blankOut] at whole
  rw [whole]
  exact ⟨blanked, reads⟩

theorem counts_blankOut :
    ∀ piece ∈ (Cursor.start source).pieces.map Prod.snd,
      piece.blankOut.text.count '\n' = piece.text.count '\n' := by
  intro piece member
  obtain ⟨after, fits⟩ := (Cursor.start source).pieces_divide.fits piece member
  exact fits.count_blankOut

theorem tokens_blankOut : (ofSource (blankOut source)).tokens = (ofSource source).tokens := by
  obtain ⟨blanked, reads⟩ := reads_blankOut source
  rw [tokens_of_reads_all reads, tokens_of_reads_all (Cursor.start source).reads,
    blanked.lineBehind_eq]
  congr 1
  exact Piece.filterMap_placed_blankOut (fun _ _ piece => piece.tokenAt?_blankOut)
    (counts_blankOut source) rfl

theorem diagnostics_blankOut :
    (ofSource (blankOut source)).diagnostics =
      (ofSource source).diagnostics.filter (! ·.isUnexpected) := by
  obtain ⟨blanked, reads⟩ := reads_blankOut source
  rw [diagnostics_of_reads_all reads, diagnostics_eq_placed source, List.filter_filterMap]
  exact Piece.filterMap_placed_blankOut
    (fun _ _ piece line => piece.diagnosticAt?_blankOut line blanked.lineBehind_eq)
    (counts_blankOut source) rfl

variable {source}

theorem written_of_mem_placed {place : List Char × Piece} (member : place ∈ placed source) :
    place.1 ++ place.2.text <+: source.toList := by
  have written := Piece.prefix_of_mem_placed member
  rwa [List.nil_append, (Cursor.start source).pieces_divide.flatMap_text] at written

theorem reportAt_eq {before : List Char} {character : Char}
    (member : (before, .unexpected character) ∈ placed source) :
    (Piece.unexpected character).diagnosticAt? source.toList before =
      some (reportAt source before.length) := by
  obtain ⟨after, split⟩ := written_of_mem_placed member
  have text : source.toList = before ++ character :: after := by
    rw [← split, List.append_assoc]
    rfl
  have same : String.singleton character = String.ofList source.toList[before.length]?.toList := by
    rw [text, List.getElem?_append_right (Nat.le_refl _), Nat.sub_self,
      String.singleton_eq_ofList]
    rfl
  rw [reportAt, ← same, text, List.take_left]
  rfl

variable (source)

/-- What is reported as unexpected is the characters at their places, one after the other. -/
theorem reports_unexpected :
    (ofSource source).diagnostics.filter (·.isUnexpected) =
      (unexpectedAt source).map (reportAt source) := by
  rw [diagnostics_eq_placed, List.filter_filterMap, unexpectedAt, Piece.unexpectedAt,
    List.map_filterMap]
  apply List.filterMap_congr
  rintro ⟨before, piece⟩ member
  by_cases unexpected : ∃ character, piece = .unexpected character
  · obtain ⟨character, rfl⟩ := unexpected
    have complains := reportAt_eq member
    have told := (Piece.isUnexpected_of_diagnosticAt? complains).mpr ⟨character, rfl⟩
    rw [complains, Option.filter_some, if_pos told]
    rfl
  · have silent : (piece.diagnosticAt? source.toList before).filter (·.isUnexpected) = none := by
      rw [Option.filter_eq_none_iff]
      intro diagnostic complains told
      exact unexpected ((Piece.isUnexpected_of_diagnosticAt? complains).mp told)
    rw [silent]
    cases piece with
    | unexpected character => exact absurd ⟨character, rfl⟩ unexpected
    | _ => rfl

/-- Of two places one is the other or lies behind its piece. -/
theorem apart_of_mem_placed :
    ∀ first ∈ placed source, ∀ second ∈ placed source, first = second ∨
      first.1 ++ first.2.text <+: second.1 ∨ second.1 ++ second.2.text <+: first.1 := by
  have inOrder := Piece.pairwise_placed [] ((Cursor.start source).pieces.map Prod.snd)
  exact List.Pairwise.forall_of_forall_of_flip (fun _ _ => .inl rfl)
    (inOrder.imp fun behind => .inr (.inl behind)) (inOrder.imp fun behind => .inr (.inr behind))

/-- No place inside of another piece is that of a character that is reported. -/
theorem not_mem_unexpectedAt {place : List Char × Piece} (member : place ∈ placed source)
    (expected : ∀ character, place.2 ≠ .unexpected character) {index : Nat}
    (begun : place.1.length ≤ index) (inside : index < (place.1 ++ place.2.text).length) :
    index ∉ unexpectedAt source := by
  intro isUnexpected
  obtain ⟨before, character, isPlaced, rfl⟩ := Piece.mem_unexpectedAt_iff.mp isUnexpected
  rcases apart_of_mem_placed source _ member _ isPlaced with rfl | behind | behind
  · exact expected character rfl
  · exact absurd behind.length_le (Nat.not_le.mpr inside)
  · have reach := behind.length_le
    rw [List.length_append] at reach
    exact absurd (Nat.le_trans reach begun) (by simp [Piece.text])

/-- What cannot be read has no part in the scan of a text. The text with a space in the place
of every character that is reported as unexpected is divided alike, and scanned to the same
tokens on the same lines. It is complained about for the same other reasons, and what has gone
is one complaint about each of these characters. None of them is inside of a string or a
comment, or of any other piece. -/
theorem recovery_transparent :
    (ofSource (blankOut source)).tokens = (ofSource source).tokens ∧
      (ofSource (blankOut source)).diagnostics =
        (ofSource source).diagnostics.filter (! ·.isUnexpected) ∧
      (ofSource source).diagnostics.filter (·.isUnexpected) =
        (unexpectedAt source).map (reportAt source) ∧
      (Cursor.start (blankOut source)).pieces.map Prod.snd =
        ((Cursor.start source).pieces.map Prod.snd).map Piece.blankOut ∧
      ∀ place ∈ placed source, (∀ character, place.2 ≠ .unexpected character) →
        ∀ index, place.1.length ≤ index → index < (place.1 ++ place.2.text).length →
          index ∉ unexpectedAt source :=
  ⟨tokens_blankOut source, diagnostics_blankOut source, reports_unexpected source,
    (reads_blankOut source).2.pieces_eq rfl,
    fun _ member expected _ => not_mem_unexpectedAt source member expected⟩

/-- A character that cannot be read may be of any size, and is nothing out of the ordinary in a
string or a comment. -/
example : Scan.blankOut "1é@+\"@\"/*é*/#" = "1  +\"@\"/*é*/ " := by decide +kernel

end Scan

end Reckon
