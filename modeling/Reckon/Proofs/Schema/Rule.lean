import Reckon.Proofs.Text
import Reckon.Schema

/-!
# Faults in a grammar

What can be wrong with a line of a grammar, told by the parts of the line: the text before the
first colon, and behind it the pieces between the commas. A line is refused for its first
fault, and a grammar for the first line that has one.
-/

namespace Reckon

namespace Schema

/-! ## The first failure -/

/-- Some item is at fault, and those before it are sound. -/
def First {α : Type} (Sound Fault : α → Prop) (items : List α) : Prop :=
  ∃ before bad behind, items = before ++ bad :: behind ∧
    (∀ item ∈ before, Sound item) ∧ Fault bad

namespace First

variable {α : Type} {Sound Fault : α → Prop}

@[simp] theorem nil : ¬ First Sound Fault [] := by
  rintro ⟨before, bad, behind, shape, -⟩
  simp at shape

theorem cons_iff {item : α} {items : List α} :
    First Sound Fault (item :: items) ↔
      Fault item ∨ Sound item ∧ First Sound Fault items := by
  constructor
  · rintro ⟨before, bad, behind, shape, sound, fault⟩
    cases before with
    | nil =>
      cases shape
      exact .inl fault
    | cons first before =>
      cases shape
      obtain ⟨soundFirst, sound⟩ := List.forall_mem_cons.1 sound
      exact .inr ⟨soundFirst, before, bad, behind, rfl, sound, fault⟩
  · rintro (fault | ⟨soundFirst, before, bad, behind, rfl, sound, fault⟩)
    · exact ⟨[], item, items, rfl, nofun, fault⟩
    · exact ⟨item :: before, bad, behind, rfl, List.forall_mem_cons.2 ⟨soundFirst, sound⟩,
        fault⟩

theorem exists_of_mem {β : Type} {FaultOf : α → β → Prop} {items : List α} {item : α}
    {fault : β} (member : item ∈ items) (faulty : FaultOf item fault) :
    ∃ error, First (fun other => ¬ ∃ fault, FaultOf other fault) (FaultOf · error) items := by
  induction items with
  | nil => cases member
  | cons first items ih =>
    by_cases faultyFirst : ∃ fault, FaultOf first fault
    · obtain ⟨error, faultFirst⟩ := faultyFirst
      exact ⟨error, cons_iff.2 (.inl faultFirst)⟩
    · rcases List.mem_cons.1 member with rfl | later
      · exact absurd ⟨fault, faulty⟩ faultyFirst
      · obtain ⟨error, among⟩ := ih later
        exact ⟨error, cons_iff.2 (.inr ⟨faultyFirst, among⟩)⟩

end First

/-- Reading some of the items fails with the first of these that cannot be read. -/
theorem mapM_filter_eq_error_iff {ε α β : Type} {read : α → Except ε β} {keep : α → Bool}
    {items : List α} {error : ε} :
    (items.filter keep).mapM read = .error error ↔
      First (fun item => keep item → ∃ result, read item = .ok result)
        (fun item => keep item ∧ read item = .error error) items := by
  induction items with
  | nil => simp [pure, Except.pure]
  | cons item items ih =>
    rw [First.cons_iff, ← ih, List.filter_cons]
    by_cases kept : keep item
    · rw [if_pos kept, List.mapM_cons]
      cases read item with
      | error other => simp [kept, bind, Except.bind]
      | ok result =>
        cases (items.filter keep).mapM read <;> simp [kept, bind, Except.bind, pure, Except.pure]
    · simp [kept]

theorem exists_of_mem_mapM {ε α β : Type} {read : α → Except ε β} {items : List α}
    {results : List β} (reads : items.mapM read = .ok results) {result : β}
    (member : result ∈ results) : ∃ item ∈ items, read item = .ok result := by
  induction items generalizing results with
  | nil =>
    cases reads
    cases member
  | cons item items ih =>
    rw [List.mapM_cons] at reads
    cases first : read item with
    | error error =>
      rw [first] at reads
      cases reads
    | ok head =>
      cases rest : items.mapM read with
      | error error =>
        rw [first, rest] at reads
        cases reads
      | ok others =>
        rw [first, rest] at reads
        cases reads
        rcases List.mem_cons.1 member with rfl | inOthers
        · exact ⟨item, List.mem_cons_self, first⟩
        · obtain ⟨other, inItems, isRead⟩ := ih rest inOthers
          exact ⟨other, List.mem_cons_of_mem _ inItems, isRead⟩

/-! ## Pieces -/

/-- A piece between commas is sound when it is blank or has a type and a name, and a field may
have that name. -/
def SoundPiece (piece : List Char) : Prop :=
  Text.words piece = [] ∨
    ∃ type name, Text.words piece = [type, name] ∧ String.ofList name ∉ reservedNames

/-- What is wrong with a piece between commas, in the rule for a type. -/
inductive PieceFault (typeName : String) (piece : List Char) : GrammarError → Prop where
  | reserved {type name : List Char} :
      Text.words piece = [type, name] → String.ofList name ∈ reservedNames →
      PieceFault typeName piece (.reservedFieldName (String.ofList name))
  | malformed :
      Text.words piece ≠ [] → (Text.words piece).length ≠ 2 →
      PieceFault typeName piece (.malformedField typeName (String.ofList (Text.trim piece)))

theorem readField_eq_ok_iff {typeName : String} {piece : List Char} :
    (Text.words piece ≠ [] → ∃ field, Rule.readField typeName (Text.trim piece) = .ok field) ↔
      SoundPiece piece := by
  by_cases blank : Text.words piece = []
  · simp [blank, SoundPiece]
  rw [imp_iff_right blank, Rule.readField, Text.words_trim, SoundPiece, or_iff_right blank]
  split
  next type name isPair =>
    rw [isPair]
    split
    next reserved => simp [reserved]
    next allowed => simp [allowed]
  next noPair =>
    constructor
    · rintro ⟨field, ⟨⟩⟩
    · rintro ⟨type, name, isPair, -⟩
      exact absurd isPair (noPair type name)

theorem readField_eq_error_iff {typeName : String} {piece : List Char} {error : GrammarError} :
    Text.words piece ≠ [] ∧ Rule.readField typeName (Text.trim piece) = .error error ↔
      PieceFault typeName piece error := by
  rw [Rule.readField, Text.words_trim]
  constructor
  · rintro ⟨filled, fails⟩
    split at fails
    next type name isPair =>
      split at fails
      next reserved =>
        cases fails
        exact .reserved isPair reserved
      · cases fails
    next noPair =>
      cases fails
      refine .malformed filled fun count => ?_
      obtain ⟨type, name, isPair⟩ := List.length_eq_two.1 count
      exact noPair type name isPair
  · rintro (⟨isPair, reserved⟩ | ⟨filled, count⟩)
    · simp [isPair, reserved]
    · refine ⟨filled, ?_⟩
      split
      next isPair => simp [isPair] at count
      next => rfl

/-! ## Lines -/

namespace Rule

/-- What is wrong with a line of a grammar. -/
inductive Fault (line : String) : GrammarError → Prop where
  | missingColon : ':' ∉ line.toList → Fault line (.missingColon line)
  | missingTypeName {front fields : List Char} :
      line.toList = front ++ ':' :: fields → ':' ∉ front →
      (∀ character ∈ front, Text.isBlank character = true) →
      Fault line (.missingTypeName line)
  | field {front fields : List Char} {error : GrammarError} :
      line.toList = front ++ ':' :: fields → ':' ∉ front →
      ¬ (∀ character ∈ front, Text.isBlank character = true) →
      First SoundPiece (PieceFault (String.ofList (Text.trim front)) · error)
        (fields.splitOn ',') →
      Fault line error

/-- The fields of a rule have the fault of the first piece that is not sound. -/
theorem mapM_readField_eq_error_iff {typeName : String} {fields : List Char}
    {error : GrammarError} :
    (fieldTexts fields).mapM (readField typeName) = .error error ↔
      First SoundPiece (PieceFault typeName · error) (fields.splitOn ',') := by
  have kept (piece : List Char) :
      (!(Text.trim piece).isEmpty) = true ↔ Text.words piece ≠ [] := by
    simp [← Text.trim_eq_nil_iff]
  rw [fieldTexts, List.filter_map, List.mapM_map, mapM_filter_eq_error_iff]
  simp only [Function.comp_apply, kept, readField_eq_ok_iff, readField_eq_error_iff]

theorem ofLine_of_no_colon {line : String} (noColon : ':' ∉ line.toList) :
    ofLine line = .error (.missingColon line) := by
  rw [ofLine, List.dropWhile_eq_nil_iff.2 (Text.bne_of_notMem noColon)]

theorem ofLine_of_colon {line : String} {front fields : List Char}
    (divides : line.toList = front ++ ':' :: fields) (noColon : ':' ∉ front) :
    ofLine line =
      if Text.trim front = [] then .error (.missingTypeName line)
      else
        ((fieldTexts fields).mapM (readField (String.ofList (Text.trim front)))).map
          (Rule.mk (String.ofList (Text.trim front))) := by
  obtain ⟨taken, dropped⟩ :=
    Text.span_exact (':' :: fields) (Text.bne_of_notMem noColon) (by simp)
  rw [ofLine, divides, taken, dropped]
  dsimp only
  cases Text.trim front with
  | nil => rfl
  | cons first name =>
    rw [if_neg (List.cons_ne_nil first name)]
    dsimp only
    cases (fieldTexts fields).mapM (readField (String.ofList (first :: name))) <;> rfl

theorem ofLine_eq_error_iff {line : String} {error : GrammarError} :
    ofLine line = .error error ↔ Fault line error := by
  constructor
  · intro refused
    by_cases colon : ':' ∈ line.toList
    · obtain ⟨front, fields, divides, noColon⟩ := List.eq_append_cons_of_mem colon
      rw [ofLine_of_colon divides noColon] at refused
      split at refused
      next blank =>
        cases refused
        rw [Text.trim_eq_nil_iff, Text.words_eq_nil_iff] at blank
        exact .missingTypeName divides noColon blank
      next named =>
        rw [Text.trim_eq_nil_iff, Text.words_eq_nil_iff] at named
        refine .field divides noColon named (mapM_readField_eq_error_iff.1 ?_)
        cases reads : (fieldTexts fields).mapM
            (readField (String.ofList (Text.trim front))) with
        | ok fields =>
          rw [reads] at refused
          cases refused
        | error other =>
          rw [reads] at refused
          cases refused
          rfl
    · rw [ofLine_of_no_colon colon] at refused
      cases refused
      exact .missingColon colon
  · rintro (noColon | ⟨divides, noColon, blank⟩ | ⟨divides, noColon, named, faulty⟩)
    · exact ofLine_of_no_colon noColon
    · rw [ofLine_of_colon divides noColon, if_pos]
      rwa [Text.trim_eq_nil_iff, Text.words_eq_nil_iff]
    · rw [ofLine_of_colon divides noColon, if_neg, mapM_readField_eq_error_iff.2 faulty]
      · rfl
      · rwa [Text.trim_eq_nil_iff, Text.words_eq_nil_iff]

/-- A line is read exactly when nothing is wrong with it. -/
theorem ofLine_eq_ok_iff {line : String} :
    (∃ rule, ofLine line = .ok rule) ↔ ¬ ∃ error, Fault line error := by
  simp only [← ofLine_eq_error_iff]
  cases ofLine line <;> simp

theorem readField_eq_ok {typeName : String} {text : List Char} {field : Field}
    (reads : readField typeName text = .ok field) :
    Text.words text = [field.type.toList, field.name.toList] := by
  unfold readField at reads
  split at reads
  next type name isPair =>
    split at reads
    · cases reads
    · cases reads
      rw [isPair, String.toList_ofList, String.toList_ofList]
  · cases reads

end Rule

/-- A grammar is refused for the fault of its first line that has one. -/
theorem define_eq_error_iff {base : String} {uses lines : List String} {error : GrammarError} :
    define base uses lines = .error error ↔
      First (fun line => ¬ ∃ fault, Rule.Fault line fault) (Rule.Fault · error) lines := by
  have reads : (lines.filter fun _ => true).mapM Rule.ofLine = .error error ↔ _ :=
    mapM_filter_eq_error_iff
  simp only [List.filter_true, Rule.ofLine_eq_ok_iff, Rule.ofLine_eq_error_iff, forall_const,
    true_and] at reads
  rw [← reads, define, NodeModel.ofLines]
  cases lines.mapM Rule.ofLine <;> simp [Except.map]

end Schema

end Reckon
