import Reckon.Proofs.Text
import Reckon.Scan

/-!
# Written forms of tokens

A token is written in the fixed spelling of its kind, or as a word, a string or a
number. Each of these forms is read back to its token if a blank or the end of the
text follows it.
-/

namespace Reckon

/-- The spelling of a kind of tokens that are all written alike. -/
def Kind.spelling? : Kind → Option String
  | .leftParen => some "("
  | .rightParen => some ")"
  | .leftBrace => some "\x7b"
  | .rightBrace => some "\x7d"
  | .comma => some ","
  | .dot => some "."
  | .minus => some "-"
  | .plus => some "+"
  | .semicolon => some ";"
  | .slash => some "/"
  | .star => some "*"
  | .bang => some "!"
  | .bangEqual => some "!="
  | .equal => some "="
  | .equalEqual => some "=="
  | .greater => some ">"
  | .greaterEqual => some ">="
  | .less => some "<"
  | .lessEqual => some "<="
  | .keyword word => some word.spelling
  | .undefined | .identifier | .string | .number | .eof => none

/-- The written forms of tokens, each with the literal that its token carries. -/
inductive Lexeme : Kind → List Char → Option Value → Prop where
  | fixed {kind : Kind} {spelling : String} :
      kind.spelling? = some spelling → Lexeme kind spelling.toList none
  | identifier {first : Char} {rest : List Char} :
      first.isAlpha ∨ first = '_' →
      (∀ character ∈ rest, character.isAlphanum ∨ character = '_') →
      (∀ word : Keyword, word.spelling.toList ≠ first :: rest) →
      Lexeme .identifier (first :: rest) none
  | string {content : List Char} :
      '"' ∉ content →
      Lexeme .string ('"' :: (content ++ ['"'])) (some (.text (String.ofList content)))
  | whole {digits : List Char} :
      digits ≠ [] → (∀ digit ∈ digits, digit.isDigit) →
      Lexeme .number digits (some (.number (Decimal.ofDigits digits []).toFloat))
  | fraction {digits fraction : List Char} :
      digits ≠ [] → (∀ digit ∈ digits, digit.isDigit) →
      fraction ≠ [] → (∀ digit ∈ fraction, digit.isDigit) →
      Lexeme .number (digits ++ '.' :: fraction)
        (some (.number (Decimal.ofDigits digits fraction).toFloat))

theorem Lexeme.kind_ne_eof {kind : Kind} {text : List Char} {literal : Option Value}
    (lexeme : Lexeme kind text literal) : kind ≠ .eof := by
  rintro rfl
  cases lexeme with
  | fixed spelled => cases spelled

/-- A token whose line is not looked at. -/
def Token.unlined (token : Token) : Token := { token with line := 0 }

namespace Piece

/-- The blanks of the language. -/
def blanks : List Char := [' ', '\t', '\r', '\n']

/-- A text that begins with a blank or is at its end. -/
def Apart (text : List Char) : Prop :=
  ∀ character ∈ text.head?, character ∈ blanks

theorem Apart.outside {accepts : Char → Bool} {after : List Char} (apart : Apart after)
    (refused : blanks.all fun blank => !accepts blank) :
    ∀ character ∈ after.head?, accepts character = false := by
  intro character head
  simpa using List.all_eq_true.mp refused character (apart character head)

/-! ## The first character -/

theorem read_of_isDigit {first : Char} {rest : List Char} (digit : first.isDigit) :
    read first rest = numeral first rest := by
  unfold read
  split <;> first | exact absurd digit (by decide) | rw [if_pos digit]

theorem startsWord_iff {first : Char} : startsWord first ↔ first.isAlpha ∨ first = '_' := by
  simp [startsWord]

theorem isAlpha_iff_toNat {character : Char} :
    character.isAlpha ↔ 65 ≤ character.toNat ∧ character.toNat ≤ 90 ∨
      97 ≤ character.toNat ∧ character.toNat ≤ 122 := by
  change (decide (character.val ≥ 'A'.val ∧ character.val ≤ 'Z'.val) ||
    (decide (character.val ≥ 'a'.val) && decide (character.val ≤ 'z'.val))) = true ↔ _
  rw [Bool.or_eq_true, Bool.and_eq_true, decide_eq_true_iff, decide_eq_true_iff,
    decide_eq_true_iff]
  exact Iff.rfl

theorem not_isDigit_of_startsWord {first : Char} (starts : startsWord first) :
    ¬first.isDigit := by
  rw [startsWord_iff, isAlpha_iff_toNat] at starts
  rw [Char.isDigit_iff_toNat]
  intro digit
  change 48 ≤ first.toNat ∧ first.toNat ≤ 57 at digit
  rcases starts with (upper | lower) | rfl
  · exact absurd (Nat.le_trans upper.1 digit.2) (by decide)
  · exact absurd (Nat.le_trans lower.1 digit.2) (by decide)
  · exact absurd digit.2 (by decide)

theorem read_of_startsWord {first : Char} {rest : List Char} (starts : startsWord first) :
    read first rest = word first rest := by
  unfold read
  split <;> first
    | exact absurd starts (by decide)
    | rw [if_neg (not_isDigit_of_startsWord starts), if_pos starts]

/-! ## Words, numbers and strings -/

theorem continuesWord_iff {character : Char} :
    continuesWord character ↔ character.isAlphanum ∨ character = '_' := by
  simp [continuesWord]

theorem word_of_spelled {first : Char} {rest after : List Char} {keyword : Keyword}
    (continues : ∀ character ∈ rest, continuesWord character) (apart : Apart after)
    (spelled : Keyword.ofSpelling? (String.ofList (first :: rest)) = some keyword) :
    word first (rest ++ after) = .token (.keyword keyword) (first :: rest) none := by
  have taken := (Text.span_exact after continues (apart.outside (by decide))).1
  simp only [word, taken, spelled]

theorem word_of_unknown {first : Char} {rest after : List Char}
    (continues : ∀ character ∈ rest, continuesWord character) (apart : Apart after)
    (unknown : Keyword.ofSpelling? (String.ofList (first :: rest)) = none) :
    word first (rest ++ after) = .token .identifier (first :: rest) none := by
  have taken := (Text.span_exact after continues (apart.outside (by decide))).1
  simp only [word, taken, unknown]

theorem afterQuote_eq {content after : List Char} (unquoted : '"' ∉ content) :
    afterQuote (content ++ '"' :: after) =
      .token .string ('"' :: (content ++ ['"'])) (some (.text (String.ofList content))) := by
  have taken := (Text.span_exact ('"' :: after) (Text.bne_of_notMem unquoted) (by simp)).1
  rw [afterQuote, taken, if_neg]
  simp

/-- Digits end before anything but a digit, or a point and a digit. -/
theorem numeral_whole {first : Char} {rest after : List Char}
    (digits : ∀ digit ∈ rest, digit.isDigit)
    (outside : ∀ character ∈ after.head?, character.isDigit = false)
    (noFraction : ∀ digit tail, after = '.' :: digit :: tail → digit.isDigit = false) :
    numeral first (rest ++ after) =
      .token .number (first :: rest)
        (some (.number (Decimal.ofDigits (first :: rest) []).toFloat)) := by
  obtain ⟨taken, dropped⟩ := Text.span_exact after digits outside
  simp only [numeral, taken, dropped]
  split
  next behind =>
      have empty : behind.takeWhile Char.isDigit = [] := by
        cases behind with
        | nil => rfl
        | cons digit tail => rw [List.takeWhile_cons, noFraction digit tail rfl]; rfl
      simp only [empty, List.isEmpty_nil, if_true]
  next => rfl

/-- Digits after a point end before anything but a digit. -/
theorem numeral_fraction {first : Char} {rest fraction after : List Char}
    (digits : ∀ digit ∈ rest, digit.isDigit) (nonempty : fraction ≠ [])
    (fractionDigits : ∀ digit ∈ fraction, digit.isDigit)
    (outside : ∀ character ∈ after.head?, character.isDigit = false) :
    numeral first (rest ++ '.' :: (fraction ++ after)) =
      .token .number (first :: (rest ++ '.' :: fraction))
        (some (.number (Decimal.ofDigits (first :: rest) fraction).toFloat)) := by
  obtain ⟨taken, dropped⟩ := Text.span_exact ('.' :: (fraction ++ after)) digits (by simp)
  have fractionTaken := (Text.span_exact after fractionDigits outside).1
  simp only [numeral, taken, dropped, fractionTaken]
  simp [nonempty]

/-! ## Reading a written form -/

@[simp] theorem ofSpelling?_spelling (word : Keyword) :
    Keyword.ofSpelling? word.spelling = some word := by
  cases word <;> rfl

theorem ofSpelling?_eq_none {text : String} (other : ∀ word : Keyword, word.spelling ≠ text) :
    Keyword.ofSpelling? text = none := by
  simp [Keyword.ofSpelling?, other]

theorem exists_spelling_eq_cons (keyword : Keyword) : ∃ first rest,
    keyword.spelling.toList = first :: rest ∧ startsWord first ∧
      rest.all continuesWord = true := by
  cases keyword <;> exact ⟨_, _, rfl, by decide, by decide⟩

theorem read_keyword {after : List Char} (keyword : Keyword) (apart : Apart after) :
    ∃ first rest, keyword.spelling.toList = first :: rest ∧
      read first (rest ++ after) = .token (.keyword keyword) (first :: rest) none := by
  obtain ⟨first, rest, equal, starts, continues⟩ := exists_spelling_eq_cons keyword
  refine ⟨first, rest, equal, ?_⟩
  have spelled : Keyword.ofSpelling? (String.ofList (first :: rest)) = some keyword := by
    rw [← equal, String.ofList_toList, ofSpelling?_spelling]
  rw [read_of_startsWord starts, word_of_spelled (List.all_eq_true.mp continues) apart spelled]

end Piece

/-- A written form is read to its token if a blank or the end of the text follows. -/
theorem Lexeme.read {kind : Kind} {text after : List Char} {literal : Option Value}
    (lexeme : Lexeme kind text literal) (apart : Piece.Apart after) :
    ∃ first rest, text = first :: rest ∧
      Piece.read first (rest ++ after) = .token kind text literal := by
  cases lexeme with
  | @fixed _ spelling spelled =>
      cases kind with
      | keyword word =>
          cases spelled
          obtain ⟨first, rest, equal, read⟩ := Piece.read_keyword word apart
          exact ⟨first, rest, equal, equal ▸ read⟩
      | undefined | identifier | string | number | eof => cases spelled
      | bang | equal | greater | less | slash =>
          cases spelled
          refine ⟨_, _, rfl, ?_⟩
          cases after with
          | nil => rfl
          | cons blank after =>
              have blanks := apart blank rfl
              simp only [Piece.blanks, List.mem_cons, List.not_mem_nil, or_false] at blanks
              rcases blanks with rfl | rfl | rfl | rfl <;> rfl
      | _ =>
          cases spelled
          exact ⟨_, _, rfl, rfl⟩
  | @identifier first rest starts continues others =>
      have starts : Piece.startsWord first := Piece.startsWord_iff.mpr starts
      have continues : ∀ character ∈ rest, Piece.continuesWord character :=
        fun character member => Piece.continuesWord_iff.mpr (continues character member)
      have unknown : Keyword.ofSpelling? (String.ofList (first :: rest)) = none :=
        Piece.ofSpelling?_eq_none fun word equal => others word (by simp [equal])
      refine ⟨first, rest, rfl, ?_⟩
      rw [Piece.read_of_startsWord starts, Piece.word_of_unknown continues apart unknown]
  | @string content unquoted =>
      refine ⟨'"', content ++ ['"'], rfl, ?_⟩
      rw [List.append_assoc]
      exact Piece.afterQuote_eq unquoted
  | @whole digits nonempty allDigits =>
      obtain ⟨first, rest, rfl⟩ := List.exists_cons_of_ne_nil nonempty
      obtain ⟨digit, digits⟩ := List.forall_mem_cons.mp allDigits
      refine ⟨first, rest, rfl, ?_⟩
      have noPoint : ∀ digit tail, after = '.' :: digit :: tail → digit.isDigit = false := by
        rintro digit tail rfl
        exact absurd (apart '.' rfl) (by decide)
      rw [Piece.read_of_isDigit digit,
        Piece.numeral_whole digits (apart.outside (by decide)) noPoint]
  | @fraction digits fraction nonempty allDigits fractionNonempty fractionDigits =>
      obtain ⟨first, rest, rfl⟩ := List.exists_cons_of_ne_nil nonempty
      obtain ⟨digit, digits⟩ := List.forall_mem_cons.mp allDigits
      refine ⟨first, rest ++ '.' :: fraction, rfl, ?_⟩
      rw [Piece.read_of_isDigit digit, List.append_assoc, List.cons_append,
        Piece.numeral_fraction digits fractionNonempty fractionDigits
          (apart.outside (by decide))]
      rfl

end Reckon
