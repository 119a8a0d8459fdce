import Mathlib.Data.List.DropRight
import Mathlib.Data.List.TakeWhile
import Reckon.Text

/-!
# Runs and words

A text is often read as far as its characters belong to a class. The run that is read is the
whole of a given one exactly when the character behind that does not belong to the class. The
words of a text are its runs without a blank, and blanks at the ends of a text have no part in
them.
-/

namespace Reckon.Text

/-! ## Runs -/

/-- A run of characters ends where the first character does not belong to it. -/
theorem span_exact {accepts : Char → Bool} {run : List Char} (after : List Char)
    (inside : ∀ character ∈ run, accepts character = true)
    (outside : ∀ character ∈ after.head?, accepts character = false) :
    (run ++ after).takeWhile accepts = run ∧ (run ++ after).dropWhile accepts = after := by
  rw [List.takeWhile_append_of_pos inside, List.dropWhile_append_of_pos inside]
  cases after with
  | nil => simp
  | cons character after => simp [outside character rfl]

/-- A run of characters ends before a character that it does not accept. -/
theorem span_stop {accepts : Char → Bool} {stop : Char} (refused : accepts stop = false)
    (text tail : List Char) :
    (text ++ stop :: tail).takeWhile accepts = text.takeWhile accepts ∧
      (text ++ stop :: tail).dropWhile accepts = text.dropWhile accepts ++ stop :: tail := by
  induction text with
  | nil => simp [refused]
  | cons character text ih =>
      cases accepted : accepts character <;> simp [accepted, ih]

/-- What stops a run of characters is not accepted. -/
theorem head?_dropWhile (accepts : Char → Bool) (text : List Char) :
    ∀ character ∈ (text.dropWhile accepts).head?, accepts character = false := by
  intro character head
  have refused := List.head?_dropWhile_not accepts text
  rw [head] at refused
  exact refused

/-- A text begins with a run of characters of a class, and what stops the run is not of
the class. -/
theorem exists_span (accepts : Char → Bool) (text : List Char) :
    ∃ run after, text = run ++ after ∧ (∀ character ∈ run, accepts character = true) ∧
      ∀ character ∈ after.head?, accepts character = false :=
  ⟨text.takeWhile accepts, text.dropWhile accepts, List.takeWhile_append_dropWhile.symm,
    fun _ => List.mem_takeWhile_imp, head?_dropWhile accepts text⟩

/-- A character that a run does not have is told apart from all of the run. -/
theorem bne_of_notMem {stop : Char} {run : List Char} (absent : stop ∉ run) :
    ∀ character ∈ run, (character != stop) = true := by
  intro character member
  apply bne_iff_ne.mpr
  rintro rfl
  exact absent member

/-! ## Words -/

/-- A blank divides the words of a text. -/
theorem words_append_cons (front back : List Char) {character : Char}
    (blank : isBlank character = true) :
    words (front ++ character :: back) = words front ++ words back := by
  rw [words, List.splitOnP_append_cons front back blank, List.filter_append, words, words]

theorem words_cons_of_blank (text : List Char) {character : Char}
    (blank : isBlank character = true) : words (character :: text) = words text :=
  words_append_cons [] text blank

theorem words_append_of_blank (text : List Char) {behind : List Char}
    (blank : ∀ character ∈ behind, isBlank character = true) :
    words (text ++ behind) = words text := by
  have none_behind : words behind = [] := by
    induction behind with
    | nil => rfl
    | cons character behind ih =>
      rw [words_cons_of_blank behind (blank character (by simp))]
      exact ih fun other member => blank other (by simp [member])
  cases behind with
  | nil => rw [List.append_nil]
  | cons character behind =>
    rw [words_append_cons text behind (blank character (by simp)),
      ← words_cons_of_blank behind (blank character (by simp)), none_behind, List.append_nil]

@[simp] theorem words_dropWhile (text : List Char) :
    words (text.dropWhile isBlank) = words text := by
  induction text with
  | nil => rfl
  | cons character text ih =>
    rw [List.dropWhile_cons]
    split
    next blank => rw [words_cons_of_blank text blank, ih]
    · rfl

/-- The pieces of a text have its characters, but for those that divide it. -/
theorem mem_of_mem_splitOnP {divides : Char → Bool} {text piece : List Char}
    (isPiece : piece ∈ text.splitOnP divides) {character : Char} (member : character ∈ piece) :
    character ∈ text ∧ divides character = false := by
  induction text generalizing piece with
  | nil =>
    rw [List.splitOnP_nil, List.mem_singleton] at isPiece
    rw [isPiece] at member
    cases member
  | cons first text ih =>
    rw [List.splitOnP_cons_eq_if_modifyHead] at isPiece
    split at isPiece
    · rcases List.mem_cons.1 isPiece with rfl | isPiece
      · cases member
      · exact (ih isPiece member).imp_left (List.mem_cons_of_mem _)
    next undivided =>
      cases pieces : text.splitOnP divides with
      | nil => exact absurd pieces (List.splitOnP_ne_nil divides text)
      | cons head others =>
        rw [pieces] at ih isPiece
        rcases List.mem_cons.1 isPiece with rfl | isOther
        · rcases List.mem_cons.1 member with rfl | inHead
          · exact ⟨List.mem_cons_self, by simpa using undivided⟩
          · exact (ih List.mem_cons_self inHead).imp_left (List.mem_cons_of_mem _)
        · exact (ih (List.mem_cons_of_mem _ isOther) member).imp_left (List.mem_cons_of_mem _)

theorem mem_of_mem_trim {text : List Char} {character : Char} (member : character ∈ trim text) :
    character ∈ text :=
  (List.dropWhile_sublist isBlank).subset
    ((List.rdropWhile_prefix (p := isBlank) (l := text.dropWhile isBlank)).subset member)

@[simp] theorem words_trim (text : List Char) : words (trim text) = words text := by
  have whole := List.rdropWhile_append_rtakeWhile
    (p := isBlank) (l := text.dropWhile isBlank)
  rw [← words_dropWhile text, ← whole, words_append_of_blank]
  · rfl
  · intro character member
    exact List.mem_rtakeWhile_imp member

theorem words_eq_nil_iff (text : List Char) :
    words text = [] ↔ ∀ character ∈ text, isBlank character = true := by
  constructor
  · induction text with
    | nil => nofun
    | cons first text ih =>
      by_cases blank : isBlank first = true
      · rw [words_cons_of_blank text blank]
        intro noWords
        exact List.forall_mem_cons.2 ⟨blank, ih noWords⟩
      · intro noWords
        -- the first character begins a word
        rw [words, List.splitOnP_cons_eq_if_modifyHead, if_neg blank] at noWords
        have pieces := List.splitOnP_ne_nil isBlank text
        cases splits : text.splitOnP isBlank with
        | nil => exact absurd splits pieces
        | cons piece rest => simp [splits] at noWords
  · intro blank
    exact words_append_of_blank [] blank

theorem trim_eq_nil_iff (text : List Char) : trim text = [] ↔ words text = [] := by
  rw [← words_dropWhile text, words_eq_nil_iff]
  exact List.rdropWhile_eq_nil_iff

/-- A text of blanks. -/
def Blank (text : List Char) : Prop :=
  ∀ character ∈ text, isBlank character = true

/-- A text with something in it, but no blank. -/
def IsWord (text : List Char) : Prop :=
  text ≠ [] ∧ ∀ character ∈ text, isBlank character = false

/-- A text without blanks at its ends. -/
def Trimmed (text : List Char) : Prop :=
  (∀ character ∈ text.head?, isBlank character = false) ∧
    ∀ character ∈ text.getLast?, isBlank character = false

variable {text before between after word other : List Char}

/-! ## Two words -/

theorem words_of_blank_append (blank : Blank before) (text : List Char) :
    words (before ++ text) = words text := by
  induction before with
  | nil => rfl
  | cons character before ih =>
    obtain ⟨first, rest⟩ := List.forall_mem_cons.1 blank
    rw [List.cons_append, words_cons_of_blank _ first, ih rest]

theorem words_of_isWord (isWord : IsWord word) : words word = [word] := by
  rw [words, List.splitOnP_eq_singleton isWord.2]
  simp [isWord.1]

theorem words_append_of_isWord (isWord : IsWord word)
    (stops : ∀ character ∈ after.head?, isBlank character = true) :
    words (word ++ after) = word :: words after := by
  cases after with
  | nil => rw [List.append_nil, words_of_isWord isWord]; rfl
  | cons character after =>
    have blank := stops character rfl
    rw [words_append_cons word after blank, words_of_isWord isWord, words_cons_of_blank after blank]
    rfl

theorem words_pair (front : Blank before) (isWord : IsWord word) (middle : Blank between)
    (divided : between ≠ []) (isOther : IsWord other) (back : Blank after) :
    words (before ++ word ++ between ++ other ++ after) = [word, other] := by
  have stops {text : List Char} (blank : Blank text) :
      ∀ character ∈ text.head?, isBlank character = true :=
    fun character first => blank character (List.mem_of_mem_head? first)
  have begins : (between ++ (other ++ after)).head? = between.head? := by
    rw [List.head?_append_of_ne_nil _ divided]
  simp only [List.append_assoc]
  rw [words_of_blank_append front, words_append_of_isWord isWord (begins ▸ stops middle),
    words_of_blank_append middle, words_append_of_isWord isOther (stops back),
    (words_eq_nil_iff after).2 back]

/-- The first word of a text stands behind blanks only. -/
theorem exists_of_words_eq_cons {others : List (List Char)} (isCons : words text = word :: others) :
    ∃ before after, text = before ++ (word ++ after) ∧ Blank before ∧ IsWord word ∧
      (∀ character ∈ after.head?, isBlank character = true) ∧ words after = others := by
  obtain ⟨before, rest, rfl, blank, begins⟩ := exists_span isBlank text
  rw [words_of_blank_append blank] at isCons
  obtain ⟨run, after, rfl, inRun, stops⟩ := exists_span (! isBlank ·) rest
  have isWord : IsWord run := by
    refine ⟨?_, fun character member => by simpa using inRun character member⟩
    rintro rfl
    -- without a first word there is nothing behind the blanks
    cases after with
    | nil => cases isCons
    | cons character after =>
      have filled := begins character rfl
      have noWord := stops character rfl
      rw [filled] at noWord
      cases noWord
  have ends : ∀ character ∈ after.head?, isBlank character = true :=
    fun character first => by simpa using stops character first
  rw [words_append_of_isWord isWord ends] at isCons
  obtain ⟨rfl, rfl⟩ := List.cons.inj isCons
  exact ⟨before, after, rfl, blank, isWord, ends, rfl⟩

theorem exists_of_words_eq_pair (isPair : words text = [word, other]) :
    ∃ before between after, text = before ++ word ++ between ++ other ++ after ∧ Blank before ∧
      IsWord word ∧ Blank between ∧ between ≠ [] ∧ IsWord other ∧ Blank after := by
  obtain ⟨before, rest, rfl, front, isWord, divides, isLast⟩ := exists_of_words_eq_cons isPair
  obtain ⟨between, after, rfl, middle, isOther, -, nothing⟩ := exists_of_words_eq_cons isLast
  refine ⟨before, between, after, by simp only [List.append_assoc], front, isWord, middle, ?_,
    isOther, (words_eq_nil_iff after).1 nothing⟩
  rintro rfl
  -- the second word would go on where the first one ends
  obtain ⟨first, others, rfl⟩ := List.exists_cons_of_ne_nil isOther.1
  have filled := isOther.2 first List.mem_cons_self
  rw [divides first rfl] at filled
  cases filled

/-! ## Blanks at the ends -/

theorem trim_padded (front : Blank before) (filled : text ≠ []) (trimmed : Trimmed text)
    (back : Blank after) : trim (before ++ text ++ after) = text := by
  have first : ∀ character ∈ (text ++ after).head?, isBlank character = false := by
    rw [List.head?_append_of_ne_nil _ filled]
    exact trimmed.1
  have last : ∀ character ∈ text.reverse.head?, isBlank character = false := by
    rw [List.head?_reverse]
    exact trimmed.2
  have behind : ∀ character ∈ after.reverse, isBlank character = true :=
    fun character member => back character (List.mem_reverse.1 member)
  rw [trim, List.append_assoc, (span_exact (text ++ after) front first).2, List.reverse_append,
    (span_exact text.reverse behind last).2, List.reverse_reverse]

/-- Nothing but blanks is taken off. -/
theorem exists_padding (text : List Char) :
    ∃ before after, text = before ++ trim text ++ after ∧ Blank before ∧ Trimmed (trim text) ∧
      Blank after := by
  have whole := List.rdropWhile_append_rtakeWhile (p := isBlank) (l := text.dropWhile isBlank)
  refine ⟨text.takeWhile isBlank, (text.dropWhile isBlank).rtakeWhile isBlank, ?_,
    fun _ => List.mem_takeWhile_imp, ⟨fun character first => ?_, fun character last => ?_⟩,
    fun _ => List.mem_rtakeWhile_imp⟩
  · rw [List.append_assoc, trim]
    exact (List.takeWhile_append_dropWhile.symm).trans (congrArg _ whole.symm)
  · refine head?_dropWhile isBlank text character ?_
    rw [← whole]
    exact List.mem_head?_append_of_mem_head? first
  · rw [trim, List.getLast?_reverse] at last
    exact head?_dropWhile isBlank _ character last

end Reckon.Text
