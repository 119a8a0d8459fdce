import Reckon.Proofs.Token.LineBreak

/-!
# The longest match

Where a token begins, no longer text could have been read as one. The classes of texts that
tokens are written as are told here without regard to how they are read, and this module
proves that the token of a place is the longest text of any class that begins there.
-/

namespace Reckon

/-! ## Classes of texts -/

/-- The classes of texts that tokens are written as. Each mark is a class of its own. -/
inductive Form where
  | mark (kind : Kind)
  | word
  | number
  | string

namespace Form

inductive Has : Form → List Char → Prop where
  | mark {kind : Kind} {spelling : String} :
      kind.spelling? = some spelling → (∀ word, kind ≠ .keyword word) →
      Has (.mark kind) spelling.toList
  | word {first : Char} {rest : List Char} :
      first.isAlpha ∨ first = '_' →
      (∀ character ∈ rest, character.isAlphanum ∨ character = '_') →
      Has .word (first :: rest)
  | whole {digits : List Char} :
      digits ≠ [] → (∀ digit ∈ digits, digit.isDigit) → Has .number digits
  | fraction {digits fraction : List Char} :
      digits ≠ [] → (∀ digit ∈ digits, digit.isDigit) →
      fraction ≠ [] → (∀ digit ∈ fraction, digit.isDigit) →
      Has .number (digits ++ '.' :: fraction)
  | string {content : List Char} :
      '"' ∉ content → Has .string ('"' :: (content ++ ['"']))

/-- The kind of a token that is written as a text of a class. A word that is not reserved is
an identifier. -/
inductive Types : Form → List Char → Kind → Prop where
  | mark {kind : Kind} {text : List Char} : Types (.mark kind) text kind
  | keyword (word : Keyword) : Types .word word.spelling.toList (.keyword word)
  | identifier {text : List Char} :
      (∀ word : Keyword, word.spelling.toList ≠ text) → Types .word text .identifier
  | number {text : List Char} : Types .number text .number
  | string {text : List Char} : Types .string text .string

end Form

theorem Keyword.hasForm (word : Keyword) : Form.word.Has word.spelling.toList := by
  obtain ⟨first, rest, spelled, starts, continues⟩ := Piece.exists_spelling_eq_cons word
  rw [spelled]
  refine .word (Piece.startsWord_iff.mp starts) fun character member => ?_
  exact Piece.continuesWord_iff.mp (List.all_eq_true.mp continues character member)

variable {kind : Kind} {text lexeme after before : List Char} {literal : Option Value}

theorem Form.Has.ne_nil {form : Form} (has : form.Has text) : text ≠ [] := by
  cases has with
  | @mark kind _ spelled noKeyword =>
      cases kind with
      | keyword word => exact absurd rfl (noKeyword word)
      | _ => cases spelled <;> exact List.cons_ne_nil _ _
  | whole nonempty _ => exact nonempty
  | word | fraction | string => simp

/-- What a token is written as is of a class, and its kind is that of the class. -/
theorem Lexeme.form (written : Lexeme kind lexeme literal) :
    ∃ form : Form, form.Has lexeme ∧ form.Types lexeme kind := by
  cases written with
  | fixed spelled =>
      cases kind with
      | keyword word =>
          cases spelled
          exact ⟨.word, word.hasForm, .keyword word⟩
      | _ => exact ⟨_, .mark spelled nofun, .mark⟩
  | identifier starts continues others =>
      exact ⟨.word, .word starts continues, .identifier others⟩
  | string unquoted => exact ⟨.string, .string unquoted, .string⟩
  | whole nonempty digits => exact ⟨.number, .whole nonempty digits, .number⟩
  | fraction nonempty digits fractionNonempty fractionDigits =>
      exact ⟨.number, .fraction nonempty digits fractionNonempty fractionDigits, .number⟩

/-- No token is of the kind that stands in for a word that is not reserved. -/
theorem Lexeme.kind_ne_undefined (written : Lexeme kind lexeme literal) : kind ≠ .undefined := by
  rintro rfl
  cases written with
  | fixed spelled => cases spelled

theorem Lexeme.keyword_iff (written : Lexeme kind lexeme literal) (word : Keyword) :
    kind = .keyword word ↔ lexeme = word.spelling.toList := by
  constructor
  · rintro rfl
    cases written with
    | fixed spelled =>
        cases spelled
        rfl
  · rintro rfl
    have reserved : Lexeme (.keyword word) word.spelling.toList none := .fixed rfl
    exact (written.unique reserved).1

theorem Lexeme.identifier_iff (written : Lexeme kind lexeme literal) :
    kind = .identifier ↔
      Form.word.Has lexeme ∧ ∀ word : Keyword, lexeme ≠ word.spelling.toList := by
  constructor
  · rintro rfl
    cases written with
    | fixed spelled => cases spelled
    | identifier starts continues others =>
        exact ⟨.word starts continues, fun word => (others word).symm⟩
  · rintro ⟨isWord, others⟩
    cases isWord with
    | word starts continues =>
        have identifier := Lexeme.identifier starts continues fun word => (others word).symm
        exact (written.unique identifier).1

/-! ## What is read is long enough -/

namespace Piece

theorem text_word (first : Char) (rest : List Char) :
    (word first rest).text = first :: rest.takeWhile continuesWord := by
  unfold Piece.word
  dsimp only
  split <;> rfl

theorem length_le_text_numeral (first : Char) (rest : List Char) :
    (rest.takeWhile Char.isDigit).length + 1 ≤ (numeral first rest).text.length := by
  have longer : ∀ fraction : List Char, (rest.takeWhile Char.isDigit).length + 1 ≤
      (if fraction.isEmpty then first :: rest.takeWhile Char.isDigit
        else first :: rest.takeWhile Char.isDigit ++ '.' :: fraction).length := by
    intro fraction
    split <;> simp
  exact longer _

section Longest

variable {first : Char} {rest : List Char}

theorem length_le_text_mark {spelling : String} (spelled : kind.spelling? = some spelling)
    (noKeyword : ∀ word, kind ≠ .keyword word) (begins : spelling.toList <+: first :: rest) :
    spelling.toList.length ≤ (read first rest).text.length := by
  obtain ⟨after, split⟩ := begins
  have positive : 1 ≤ (read first rest).text.length := by
    obtain ⟨_, -, fits⟩ := read_begins first rest
    exact List.length_pos_iff.mpr fits.text_ne_nil
  cases kind with
  | bangEqual | equalEqual | greaterEqual | lessEqual =>
      cases spelled
      cases split
      exact Nat.le_refl 2
  | keyword word => exact absurd rfl (noKeyword word)
  | undefined | identifier | string | number | eof => cases spelled
  | _ =>
      cases spelled
      exact positive

theorem length_le_text_word (starts : first.isAlpha ∨ first = '_')
    (continues : ∀ character ∈ rest, character.isAlphanum ∨ character = '_') :
    (first :: rest).length ≤ (read first (rest ++ after)).text.length := by
  have continues : ∀ character ∈ rest, continuesWord character :=
    fun character member => continuesWord_iff.mpr (continues character member)
  have taken : (rest ++ after).takeWhile continuesWord = rest ++ after.takeWhile continuesWord :=
    List.takeWhile_append_of_pos continues
  rw [read_of_startsWord (startsWord_iff.mpr starts), text_word, taken]
  simp

theorem length_le_text_whole (digits : ∀ digit ∈ first :: rest, digit.isDigit) :
    (first :: rest).length ≤ (read first (rest ++ after)).text.length := by
  obtain ⟨isDigit, digitsBehind⟩ := List.forall_mem_cons.mp digits
  have taken : (rest ++ after).takeWhile Char.isDigit = rest ++ after.takeWhile Char.isDigit :=
    List.takeWhile_append_of_pos digitsBehind
  rw [read_of_isDigit isDigit]
  refine Nat.le_trans ?_ (length_le_text_numeral _ _)
  rw [taken]
  simp

/-- The digits behind a point may go on after those that are given. -/
theorem length_le_text_fraction {fraction : List Char}
    (digits : ∀ digit ∈ first :: rest, digit.isDigit) (nonempty : fraction ≠ [])
    (fractionDigits : ∀ digit ∈ fraction, digit.isDigit) :
    (first :: (rest ++ '.' :: fraction)).length ≤
      (read first (rest ++ '.' :: (fraction ++ after))).text.length := by
  obtain ⟨isDigit, digitsBehind⟩ := List.forall_mem_cons.mp digits
  obtain ⟨run, left, rfl, runDigits, stops⟩ := Text.exists_span Char.isDigit after
  have moreDigits : ∀ character ∈ fraction ++ run, character.isDigit :=
    List.forall_mem_append.mpr ⟨fractionDigits, runDigits⟩
  have more : fraction ++ run ≠ [] := by simp [nonempty]
  have read : numeral first (rest ++ '.' :: (fraction ++ run ++ left)) = _ :=
    numeral_fraction digitsBehind more moreDigits stops
  rw [← List.append_assoc, read_of_isDigit isDigit, read, Piece.text]
  simp

/-- A piece is at least as long as any text of a class that begins where the piece does. -/
theorem length_le_text_read {form : Form} (has : form.Has text) (begins : text <+: first :: rest) :
    text.length ≤ (read first rest).text.length := by
  cases has with
  | mark spelled noKeyword => exact length_le_text_mark spelled noKeyword begins
  | word starts continues =>
      obtain ⟨after, split⟩ := begins
      cases split
      exact length_le_text_word starts continues
  | whole nonempty allDigits =>
      obtain ⟨digit, digits, rfl⟩ := List.exists_cons_of_ne_nil nonempty
      obtain ⟨after, split⟩ := begins
      cases split
      exact length_le_text_whole allDigits
  | @fraction digits fraction nonempty allDigits fractionNonempty fractionDigits =>
      obtain ⟨digit, digits, rfl⟩ := List.exists_cons_of_ne_nil nonempty
      obtain ⟨after, split⟩ := begins
      have whole : first :: rest = digit :: (digits ++ '.' :: (fraction ++ after)) := by
        simpa using split.symm
      cases whole
      exact length_le_text_fraction allDigits fractionNonempty fractionDigits
  | @string content unquoted =>
      obtain ⟨after, split⟩ := begins
      have whole : first :: rest = '"' :: (content ++ '"' :: after) := by
        simpa using split.symm
      cases whole
      have read : read '"' (content ++ '"' :: after) = _ := afterQuote_eq unquoted
      rw [read, Piece.text]

end Longest

theorem noComment_of_read_token {first : Char} {rest : List Char}
    (read : read first rest = .token kind lexeme literal) :
    ¬['/', '/'] <+: first :: rest ∧ ¬['/', '*'] <+: first :: rest := by
  constructor
  · rintro ⟨after, split⟩
    cases split
    cases read
  · rintro ⟨after, split⟩
    cases split
    change afterSlash ('*' :: after) = _ at read
    rw [afterSlash] at read
    split at read <;> cases read

/-! ## Where pieces stand -/

theorem Reads.placed {start left : List Char} {pieces : List Piece}
    (reads : Reads text pieces left) :
    ∀ place ∈ placed start pieces, ∃ first rest,
      start ++ text = place.1 ++ first :: rest ∧ read first rest = place.2 := by
  induction reads generalizing start with
  | done => exact List.forall_mem_nil _
  | @more first rest after left pieces split _ ih =>
      rw [Piece.placed, List.forall_mem_cons]
      refine ⟨⟨first, rest, rfl, rfl⟩, ?_⟩
      rw [split, ← List.append_assoc]
      exact ih

theorem prefix_of_mem_placed_start {start : List Char} {pieces : List Piece}
    {place : List Char × Piece} (member : place ∈ placed start pieces) : start <+: place.1 := by
  induction pieces generalizing start with
  | nil => cases member
  | cons piece pieces ih =>
      rcases List.mem_cons.mp member with rfl | later
      · exact List.prefix_refl _
      · exact (List.prefix_append _ _).trans (ih later)

theorem pairwise_placed (start : List Char) (pieces : List Piece) :
    (placed start pieces).Pairwise fun first second => first.1 ++ first.2.text <+: second.1 := by
  induction pieces generalizing start with
  | nil => exact .nil
  | cons piece pieces ih =>
      exact .cons (fun place member => prefix_of_mem_placed_start member) (ih _)

end Piece

/-! ## The tokens of a scan -/

/-- The token of a spot is the longest that the text from there on could be read to, and its
kind goes by its class. -/
structure Spot.IsLongest (spot : Spot) (rest : List Char) : Prop where
  begins : spot.token.lexeme.toList <+: rest
  form : ∃ form : Form,
    form.Has spot.token.lexeme.toList ∧ form.Types spot.token.lexeme.toList spot.token.kind
  longest : ∀ (form : Form) (text : List Char), form.Has text → text <+: rest →
    text.length ≤ spot.token.lexeme.toList.length
  noComment : ¬['/', '/'] <+: rest ∧ ¬['/', '*'] <+: rest
  keyword : ∀ word : Keyword,
    spot.token.kind = .keyword word ↔ spot.token.lexeme.toList = word.spelling.toList
  identifier : spot.token.kind = .identifier ↔
    Form.word.Has spot.token.lexeme.toList ∧
      ∀ word : Keyword, spot.token.lexeme.toList ≠ word.spelling.toList
  defined : spot.token.kind ≠ .undefined

namespace Scan

/-- A spot before the end of a text is that of a token among the pieces. -/
theorem exists_placed_of_mem_spots {source : String} {spot : Spot}
    (member : spot ∈ spots source) (more : spot.token.kind ≠ .eof) :
    ∃ lexeme literal, (spot.before, .token spot.token.kind lexeme literal) ∈ placed source ∧
      spot.token.lexeme.toList = lexeme := by
  rcases List.mem_append.mp member with inside | atEnd
  · obtain ⟨⟨before, piece⟩, isPlaced, found⟩ := List.mem_filterMap.mp inside
    obtain ⟨token, isToken, rfl⟩ := Option.map_eq_some_iff.mp found
    cases piece with
    | token kind lexeme literal =>
        cases isToken
        exact ⟨lexeme, literal, isPlaced, String.toList_ofList⟩
    | _ => cases isToken
  · rw [List.mem_singleton.mp atEnd] at more
    exact absurd rfl more

/-- Every token of a text is the longest match at its place. -/
theorem isLongest_of_mem_spots {source : String} {spot : Spot} (member : spot ∈ spots source)
    (more : spot.token.kind ≠ .eof) :
    ∃ rest, source.toList = spot.before ++ rest ∧ spot.IsLongest rest := by
  obtain ⟨lexeme, literal, isPlaced, same⟩ := exists_placed_of_mem_spots member more
  obtain ⟨first, rest, split, read⟩ := (Cursor.start source).reads.placed _ isPlaced
  obtain ⟨after, begins, fits⟩ := Piece.read_begins first rest
  rw [read] at begins fits
  cases fits with
  | token written =>
      refine ⟨first :: rest, split, ?_⟩
      rw [← same] at begins written
      exact
        { begins := ⟨after, begins.symm⟩
          form := written.form
          longest := fun form text has within => by
            have bound := Piece.length_le_text_read has within
            rwa [read, Piece.text, ← same] at bound
          noComment := Piece.noComment_of_read_token read
          keyword := written.keyword_iff
          identifier := written.identifier_iff
          defined := written.kind_ne_undefined }

theorem text_of_tokenAt? {piece : Piece} {token : Token}
    (isToken : piece.tokenAt? before = some token) : token.lexeme.toList = piece.text := by
  cases piece with
  | token kind lexeme literal =>
      cases isToken
      exact String.toList_ofList
  | _ => cases isToken

theorem pairwise_spots (source : String) :
    (spots source).Pairwise fun first second =>
      first.before ++ first.token.lexeme.toList <+: second.before := by
  rw [spots, List.pairwise_append]
  refine ⟨?_, List.pairwise_singleton _ _, ?_⟩
  · rw [List.pairwise_filterMap]
    refine (Piece.pairwise_placed [] _).imp fun {first second} behind spot found spot' found' => ?_
    obtain ⟨token, isToken, rfl⟩ := Option.map_eq_some_iff.mp found
    obtain ⟨token', isToken', rfl⟩ := Option.map_eq_some_iff.mp found'
    rw [text_of_tokenAt? isToken]
    exact behind
  · intro spot member last isLast
    rw [List.mem_singleton.mp isLast]
    exact (spots_in source spot (List.mem_append_left _ member)).written

/-- Two tokens and what stands between them are longer than the first token, so they form no
text of a class. -/
theorem apart_of_mem_spots {source : String} {first second : Spot} (member : first ∈ spots source)
    (laterMember : second ∈ spots source)
    (behind : first.before ++ first.token.lexeme.toList <+: second.before)
    (more : first.token.kind ≠ .eof) (laterMore : second.token.kind ≠ .eof) {text : List Char}
    (joined : first.before ++ text = second.before ++ second.token.lexeme.toList)
    (form : Form) : ¬form.Has text := by
  intro has
  obtain ⟨rest, split, match₁⟩ := isLongest_of_mem_spots member more
  have within : text <+: rest := by
    have written := (spots_in source second laterMember).written
    rw [← joined, split] at written
    exact (List.prefix_append_right_inj _).mp written
  have bound := match₁.longest form text has within
  have nonempty : 0 < second.token.lexeme.toList.length := by
    obtain ⟨_, -, match₂⟩ := isLongest_of_mem_spots laterMember laterMore
    obtain ⟨_, has₂, -⟩ := match₂.form
    exact List.length_pos_iff.mpr has₂.ne_nil
  have reach := behind.length_le
  have lengths := congrArg List.length joined
  simp only [List.length_append] at reach lengths
  omega

/-- Every token of a text is of a class, and it is the longest text of any class that begins
at its place, where no comment begins. It is a keyword just if it is a reserved word, and any
other word is an identifier. So two tokens, with whatever stands between them, never form a
text that could have been read as one. -/
theorem longest_match (source : String) :
    (ofSource source).tokens = (spots source).map Spot.token ∧
      (∀ spot ∈ spots source, spot.token.kind ≠ .eof →
        ∃ rest, source.toList = spot.before ++ rest ∧ spot.IsLongest rest) ∧
      (spots source).Pairwise fun first second =>
        first.token.kind ≠ .eof → second.token.kind ≠ .eof →
          ∀ text, first.before ++ text = second.before ++ second.token.lexeme.toList →
            ∀ form : Form, ¬form.Has text := by
  refine ⟨tokens_eq_spots source, fun spot => isLongest_of_mem_spots, ?_⟩
  refine (pairwise_spots source).imp_of_mem ?_
  intro first second member laterMember behind more laterMore text joined form
  exact apart_of_mem_spots member laterMember behind more laterMore joined form

end Scan

end Reckon
