import Reckon.Proofs.Schema.Rule

/-!
# Rules and the lines they are read from

A line is read as a rule exactly if the rule is written in it: the name of the type in front of
the first colon, and behind it the types and the names of the fields, with commas between them.
There may be blanks around all of these, and pieces between commas in which there is nothing.
Whatever is read of a line can be written in one, and no line is written for two rules.
-/

namespace Reckon

namespace Schema

variable {field : Field} {fields : List Field} {piece text : List Char}
  {pieces : List (List Char)} {line : String} {rule : Rule}

/-! ## Pieces -/

/-- The field that a piece between commas is read as, if there are two words in it. -/
def Field.ofPiece? (piece : List Char) : Option Field :=
  match Text.words piece with
  | [type, name] => some ⟨String.ofList type, String.ofList name⟩
  | _ => none

/-- A field that can be written: its type and its name are words without a comma, and a field
may have that name. -/
structure Field.Writable (field : Field) : Prop where
  type : Text.IsWord field.type.toList
  comma_not_mem_type : ',' ∉ field.type.toList
  name : Text.IsWord field.name.toList
  comma_not_mem_name : ',' ∉ field.name.toList
  allowed : field.name ∉ reservedNames

/-- A field is written as its type and its name, with blanks between them and maybe around
them. -/
def Field.Spelled (field : Field) (piece : List Char) : Prop :=
  ∃ before between after, piece =
      before ++ field.type.toList ++ between ++ field.name.toList ++ after ∧
    Text.Blank before ∧ Text.Blank between ∧ between ≠ [] ∧ Text.Blank after

/-- Fields are written one in each piece, in their order, and nothing in the other pieces. -/
inductive FieldsSpelled : List Field → List (List Char) → Prop where
  | nil : FieldsSpelled [] []
  | blank {fields : List Field} {piece : List Char} {pieces : List (List Char)} :
      Text.Blank piece → FieldsSpelled fields pieces → FieldsSpelled fields (piece :: pieces)
  | field {field : Field} {fields : List Field} {piece : List Char} {pieces : List (List Char)} :
      field.Spelled piece → FieldsSpelled fields pieces →
      FieldsSpelled (field :: fields) (piece :: pieces)

theorem comma_not_mem_of_blank (blank : Text.Blank text) : ',' ∉ text := by
  intro comma
  exact absurd (blank ',' comma) (by decide)

theorem Field.Writable.words (writable : field.Writable) (spelled : field.Spelled piece) :
    Text.words piece = [field.type.toList, field.name.toList] := by
  obtain ⟨before, between, after, rfl, front, middle, divided, back⟩ := spelled
  exact Text.words_pair front writable.type middle divided writable.name back

theorem Field.Writable.soundPiece (writable : field.Writable) (spelled : field.Spelled piece) :
    SoundPiece piece := by
  refine .inr ⟨_, _, writable.words spelled, ?_⟩
  rw [String.ofList_toList]
  exact writable.allowed

theorem Field.Writable.ofPiece?_eq (writable : field.Writable) (spelled : field.Spelled piece) :
    ofPiece? piece = some field := by
  rw [ofPiece?, writable.words spelled]
  simp only [String.ofList_toList]

theorem Field.Writable.comma_not_mem (writable : field.Writable) (spelled : field.Spelled piece) :
    ',' ∉ piece := by
  obtain ⟨before, between, after, rfl, front, middle, -, back⟩ := spelled
  simp only [List.mem_append, not_or]
  exact ⟨⟨⟨⟨comma_not_mem_of_blank front, writable.comma_not_mem_type⟩,
    comma_not_mem_of_blank middle⟩, writable.comma_not_mem_name⟩, comma_not_mem_of_blank back⟩

theorem SoundPiece.exists_field (sound : SoundPiece piece) (undivided : ',' ∉ piece) :
    (Text.Blank piece ∧ Field.ofPiece? piece = none) ∨
      ∃ field : Field, Field.ofPiece? piece = some field ∧ field.Writable ∧
        field.Spelled piece := by
  rcases sound with blank | ⟨type, name, isPair, allowed⟩
  · exact .inl ⟨(Text.words_eq_nil_iff piece).1 blank, by rw [Field.ofPiece?, blank]⟩
  · obtain ⟨before, between, after, rfl, front, isType, middle, divided, isName, back⟩ :=
      Text.exists_of_words_eq_pair isPair
    simp only [List.mem_append, not_or] at undivided
    refine .inr ⟨⟨String.ofList type, String.ofList name⟩, by rw [Field.ofPiece?, isPair], ?_, ?_⟩
    · constructor <;> simp only [String.toList_ofList]
      · exact isType
      · exact undivided.1.1.1.2
      · exact isName
      · exact undivided.1.2
      · exact allowed
    · exact ⟨before, between, after, by simp only [String.toList_ofList], front, middle, divided,
        back⟩

theorem FieldsSpelled.read (spelled : FieldsSpelled fields pieces)
    (writable : ∀ field ∈ fields, field.Writable) :
    (∀ piece ∈ pieces, SoundPiece piece ∧ ',' ∉ piece) ∧
      pieces.filterMap Field.ofPiece? = fields := by
  induction spelled with
  | nil => exact ⟨nofun, rfl⟩
  | @blank fields piece pieces blank _ ih =>
    obtain ⟨sound, read⟩ := ih writable
    have noWords := (Text.words_eq_nil_iff piece).2 blank
    refine ⟨List.forall_mem_cons.2 ⟨⟨.inl noWords, comma_not_mem_of_blank blank⟩, sound⟩, ?_⟩
    rw [List.filterMap_cons_none (by rw [Field.ofPiece?, noWords]), read]
  | field spelled _ ih =>
    obtain ⟨first, rest⟩ := List.forall_mem_cons.1 writable
    obtain ⟨sound, read⟩ := ih rest
    refine ⟨List.forall_mem_cons.2
      ⟨⟨first.soundPiece spelled, first.comma_not_mem spelled⟩, sound⟩, ?_⟩
    rw [List.filterMap_cons_some (first.ofPiece?_eq spelled), read]

/-- If nothing is written between commas, there is still one piece, and it is empty. -/
theorem FieldsSpelled.exists_ne_nil (spelled : FieldsSpelled fields pieces) :
    ∃ others, others ≠ [] ∧ [','].intercalate others = [','].intercalate pieces ∧
      FieldsSpelled fields others := by
  cases pieces with
  | nil => exact ⟨[[]], List.cons_ne_nil _ _, rfl, .blank nofun spelled⟩
  | cons piece pieces => exact ⟨_, List.cons_ne_nil piece pieces, rfl, spelled⟩

theorem fieldsSpelled_filterMap (sound : ∀ piece ∈ pieces, SoundPiece piece ∧ ',' ∉ piece) :
    (∀ field ∈ pieces.filterMap Field.ofPiece?, field.Writable) ∧
      FieldsSpelled (pieces.filterMap Field.ofPiece?) pieces := by
  induction pieces with
  | nil => exact ⟨nofun, .nil⟩
  | cons piece pieces ih =>
    obtain ⟨⟨first, undivided⟩, rest⟩ := List.forall_mem_cons.1 sound
    obtain ⟨writable, spelled⟩ := ih rest
    rcases first.exists_field undivided with ⟨blank, nothing⟩ | ⟨field, read, isWritable, isSpelled⟩
    · rw [List.filterMap_cons_none nothing]
      exact ⟨writable, .blank blank spelled⟩
    · rw [List.filterMap_cons_some read]
      exact ⟨List.forall_mem_cons.2 ⟨isWritable, writable⟩, .field isSpelled spelled⟩

namespace Rule

/-! ## Lines -/

/-- What a line is read as: the text in front of the first colon, which is not blank, names the
type, and the pieces between the commas behind it, all of them sound, hold the fields. -/
inductive Reading (line : String) : Rule → Prop where
  | of {front fields : List Char} :
      line.toList = front ++ ':' :: fields → ':' ∉ front →
      ¬ (∀ character ∈ front, Text.isBlank character = true) →
      (∀ piece ∈ fields.splitOn ',', SoundPiece piece) →
      Reading line
        ⟨String.ofList (Text.trim front), (fields.splitOn ',').filterMap Field.ofPiece?⟩

/-- A rule that can be written: there is a name of its type, without a colon in it or blanks at
its ends, and its fields can be written. -/
structure Writable (rule : Rule) : Prop where
  filled : rule.typeName ≠ ""
  colon_not_mem : ':' ∉ rule.typeName.toList
  trimmed : Text.Trimmed rule.typeName.toList
  fields : ∀ field ∈ rule.fields, field.Writable

/-- A rule is written as the name of its type, a colon, and its fields with commas between
them. -/
def Spelled (rule : Rule) (line : String) : Prop :=
  ∃ before after pieces, line.toList =
      before ++ rule.typeName.toList ++ after ++ ':' :: [','].intercalate pieces ∧
    Text.Blank before ∧ Text.Blank after ∧ FieldsSpelled rule.fields pieces

theorem mapM_readField_eq_ok_iff {typeName : String} :
    ((pieces.map Text.trim).filter (! ·.isEmpty)).mapM (readField typeName) = .ok fields ↔
      (∀ piece ∈ pieces, SoundPiece piece) ∧ fields = pieces.filterMap Field.ofPiece? := by
  induction pieces generalizing fields with
  | nil => simp [pure, Except.pure, eq_comm]
  | cons piece pieces ih =>
    have sound := @readField_eq_ok_iff typeName piece
    rw [List.map_cons, List.filter_cons, List.forall_mem_cons, List.filterMap_cons, ← sound]
    by_cases blank : Text.words piece = []
    · have nothing : Text.trim piece = [] := (Text.trim_eq_nil_iff piece).2 blank
      simp [nothing, blank, Field.ofPiece?, ih]
    · have filled : Text.trim piece ≠ [] := mt (Text.trim_eq_nil_iff piece).1 blank
      cases reads : readField typeName (Text.trim piece) with
      | error error => simp [filled, blank, reads, bind, Except.bind]
      | ok field =>
        have isPair := readField_eq_ok reads
        rw [Text.words_trim] at isPair
        simp only [Field.ofPiece?, isPair, String.ofList_toList]
        rw [if_pos (by simpa using filled), List.mapM_cons, reads]
        cases others : ((pieces.map Text.trim).filter (! ·.isEmpty)).mapM (readField typeName) with
        | error error =>
          have unsound : ¬ ∀ piece ∈ pieces, SoundPiece piece := by
            intro sound
            have fine := ih.2 ⟨sound, rfl⟩
            rw [others] at fine
            cases fine
          simp [unsound, bind, Except.bind]
        | ok results =>
          obtain ⟨soundRest, rfl⟩ := ih.1 others
          constructor
          · intro same
            cases same
            exact ⟨⟨fun _ => ⟨field, rfl⟩, soundRest⟩, rfl⟩
          · rintro ⟨-, rfl⟩
            rfl

/-- A line is read exactly if there is a name in front of a colon and no piece is at fault. -/
theorem ofLine_eq_ok_iff_reading : ofLine line = .ok rule ↔ Reading line rule := by
  constructor
  · intro reads
    have colon : ':' ∈ line.toList := by
      by_contra noColon
      rw [ofLine_of_no_colon noColon] at reads
      cases reads
    obtain ⟨front, fields, divides, noColon⟩ := List.eq_append_cons_of_mem colon
    rw [ofLine_of_colon divides noColon] at reads
    split at reads
    · cases reads
    next named =>
      rw [Text.trim_eq_nil_iff, Text.words_eq_nil_iff] at named
      cases readsFields : (fieldTexts fields).mapM
          (readField (String.ofList (Text.trim front))) with
      | error error =>
        rw [readsFields] at reads
        cases reads
      | ok results =>
        rw [readsFields] at reads
        cases reads
        obtain ⟨sound, rfl⟩ := mapM_readField_eq_ok_iff.1 readsFields
        exact .of divides noColon named sound
  · rintro ⟨divides, noColon, named, sound⟩
    rw [ofLine_of_colon divides noColon, if_neg, fieldTexts,
      mapM_readField_eq_ok_iff.2 ⟨sound, rfl⟩]
    · rfl
    · rwa [Text.trim_eq_nil_iff, Text.words_eq_nil_iff]

/-- What a line is read as is what is written in it. -/
theorem reading_iff_spelled : Reading line rule ↔ rule.Writable ∧ rule.Spelled line := by
  constructor
  · rintro @⟨front, fields, divides, noColon, named, sound⟩
    obtain ⟨before, after, padded, blank, trimmed, blankBehind⟩ := Text.exists_padding front
    have undivided : ∀ piece ∈ fields.splitOn ',', SoundPiece piece ∧ ',' ∉ piece := by
      intro piece member
      refine ⟨sound piece member, fun comma => ?_⟩
      rw [List.splitOn_eq_splitOnP] at member
      exact absurd (Text.mem_of_mem_splitOnP member comma).2 (by simp)
    obtain ⟨writable, spelled⟩ := fieldsSpelled_filterMap undivided
    refine ⟨⟨?_, ?_, ?_, writable⟩, before, after, fields.splitOn ',', ?_, blank, blankBehind,
      spelled⟩
    · intro empty
      refine named ((Text.words_eq_nil_iff front).1 ((Text.trim_eq_nil_iff front).1 ?_))
      exact String.ofList_injective empty
    · rw [String.toList_ofList]
      exact fun colon => noColon (Text.mem_of_mem_trim colon)
    · rw [String.toList_ofList]
      exact trimmed
    · rw [String.toList_ofList, List.intercalate_splitOn, ← padded, divides]
  · rintro ⟨writable, before, after, pieces, divides, front, back, spelled⟩
    obtain ⟨others, nonempty, joined, spelled⟩ := spelled.exists_ne_nil
    obtain ⟨sound, read⟩ := spelled.read writable.fields
    have separate : ([','].intercalate pieces).splitOn ',' = others := by
      rw [← joined]
      exact List.splitOn_intercalate ',' (fun piece member => (sound piece member).2) nonempty
    have named : rule.typeName.toList ≠ [] := mt String.toList_eq_nil_iff.1 writable.filled
    have trims := Text.trim_padded front named writable.trimmed back
    have noColon : ':' ∉ before ++ rule.typeName.toList ++ after := by
      have apart {text : List Char} (blank : Text.Blank text) : ':' ∉ text :=
        fun colon => absurd (blank ':' colon) (by decide)
      simp only [List.mem_append, not_or]
      exact ⟨⟨apart front, writable.colon_not_mem⟩, apart back⟩
    have filled : ¬ Text.Blank (before ++ rule.typeName.toList ++ after) := by
      rw [Text.Blank, ← Text.words_eq_nil_iff, ← Text.trim_eq_nil_iff, trims]
      exact named
    have reading := Reading.of divides noColon filled
      (separate ▸ fun piece member => (sound piece member).1)
    rwa [trims, separate, read, String.ofList_toList] at reading

theorem writable_of_ofLine (reads : ofLine line = .ok rule) : rule.Writable :=
  (reading_iff_spelled.1 (ofLine_eq_ok_iff_reading.1 reads)).1

/-- The usual line of a rule, such as `Pair : Expr left, Expr right`. -/
def toLine (rule : Rule) : String :=
  String.ofList (rule.typeName.toList ++ ' ' :: ':' :: [','].intercalate
    (rule.fields.map fun field => ' ' :: (field.type.toList ++ ' ' :: field.name.toList)))

theorem spelled_toLine (rule : Rule) : rule.Spelled rule.toLine := by
  have space : Text.Blank [' '] := List.forall_mem_singleton.2 (by decide)
  refine ⟨[], [' '], rule.fields.map fun field =>
    ' ' :: (field.type.toList ++ ' ' :: field.name.toList), ?_, nofun, space, ?_⟩
  · rw [toLine, String.toList_ofList]
    simp
  induction rule.fields with
  | nil => exact .nil
  | cons field fields ih =>
    exact .field ⟨[' '], [' '], [], by simp, space, space, List.cons_ne_nil _ _, nofun⟩ ih

theorem Writable.ofLine_toLine (writable : rule.Writable) : ofLine rule.toLine = .ok rule :=
  ofLine_eq_ok_iff_reading.2 (reading_iff_spelled.2 ⟨writable, spelled_toLine rule⟩)

/-- A line is read as a rule if and only if there is a colon in it, a name in front of the
first one, and no piece at fault among those between the commas behind; the rule has that name
and the fields of these pieces in their order. Any other line is refused for its fault: that
there is no colon, or else no name, or else that of the first piece with one. The rules that
are read are those that can be written in a line, each of the lines that it is written in; its
usual line is one of them. -/
theorem ofLine_exact (line : String) :
    (∀ rule, ofLine line = .ok rule ↔ Reading line rule) ∧
      (∀ error, ofLine line = .error error ↔ Fault line error) ∧
      (∀ rule, ofLine line = .ok rule ↔ rule.Writable ∧ rule.Spelled line) ∧
      ∀ rule, ofLine rule.toLine = .ok rule ↔ rule.Writable :=
  ⟨fun _ => ofLine_eq_ok_iff_reading, fun _ => ofLine_eq_error_iff,
    fun _ => ofLine_eq_ok_iff_reading.trans reading_iff_spelled,
    fun _ => ⟨writable_of_ofLine, fun writable => writable.ofLine_toLine⟩⟩

/-- Only the first colon divides, and empty pieces are passed over. -/
example : ofLine "\tPair:,a::B left ,\u2003, C\u00a0right," =
    .ok ⟨"Pair", [⟨"a::B", "left"⟩, ⟨"C", "right"⟩]⟩ := by
  decide +kernel

end Rule

end Schema

end Reckon
