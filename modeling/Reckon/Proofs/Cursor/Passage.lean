import Reckon.Proofs.Cursor.Consumed

/-!
# Cursors as divided texts

A cursor divides its text into what it has read and what is still before it. This module
says what each request does to a divided text, and proves that any number of cursors in one
text, which are asked and cloned in any order, do just that. Line and offset of a cursor are
those of the text that it has read.
-/

namespace Reckon

/-! ## Requests -/

namespace Cursor

/-- What can be asked of a cursor. -/
inductive Request where
  | next
  | peek
  | peekNext
  | consumeIf (expected : Char)
  | consumeWhile (accepts : Char → Bool)

/-- What a cursor or several of them answer. -/
inductive Reply where
  | character (found : Option Char)
  | consumed (whether : Bool)
  | cloned (number : Nat)
  | done
  deriving DecidableEq

/-- What a cursor answers, and the cursor behind the request. -/
def Request.perform (cursor : Cursor) : Request → Reply × Cursor
  | .next => (.character cursor.next.1, cursor.next.2)
  | .peek => (.character cursor.peek, cursor)
  | .peekNext => (.character cursor.peekNext, cursor)
  | .consumeIf expected =>
      (.consumed (cursor.consumeIf expected).1, (cursor.consumeIf expected).2)
  | .consumeWhile accepts => (.done, cursor.consumeWhile accepts)

/-- What can be asked of several cursors. They have numbers, and a clone gets the next one. -/
inductive Call where
  | ask (number : Nat) (request : Request)
  | clone (number : Nat)

/-- Carry out a call. There is no reply if there is no cursor with the number. -/
def Call.perform (cursors : List Cursor) : Call → Option Reply × List Cursor
  | .ask number request =>
      match cursors[number]? with
      | some cursor =>
          (some (request.perform cursor).1, cursors.set number (request.perform cursor).2)
      | none => (none, cursors)
  | .clone number =>
      match cursors[number]? with
      | some cursor => (some (.cloned cursors.length), cursors ++ [cursor])
      | none => (none, cursors)

/-- Carry out calls one after the other: their replies, and the cursors behind them. -/
def history (cursors : List Cursor) : List Call → List (Option Reply) × List Cursor
  | [] => ([], cursors)
  | call :: calls =>
      let (reply, later) := call.perform cursors
      let (replies, last) := history later calls
      (reply :: replies, last)

end Cursor

/-! ## Divided texts -/

/-- A text that is divided into what has been read of it and what has not. -/
structure Passage where
  consumed : List Char
  remaining : List Char
  deriving DecidableEq

/-- The longest part at the beginning of a text that has accepted characters only. -/
structure IsLongestRun (accepts : Char → Bool) (text run : List Char) : Prop where
  begins : run <+: text
  accepted : ∀ character ∈ run, accepts character = true
  longest : ∀ other, other <+: text → (∀ character ∈ other, accepts character = true) →
    other.length ≤ run.length

namespace Passage

open Cursor (Request Reply Call)

/-- What a request comes to in a divided text. To peek is to read on and stay all the same. -/
inductive Answers : Passage → Request → Reply → Passage → Prop where
  | next {before after : List Char} {first : Char} :
      Answers ⟨before, first :: after⟩ .next (.character (some first)) ⟨before ++ [first], after⟩
  | nextAtEnd {before : List Char} :
      Answers ⟨before, []⟩ .next (.character none) ⟨before, []⟩
  | peek {passage later : Passage} {found : Option Char} :
      Answers passage .next (.character found) later →
      Answers passage .peek (.character found) passage
  | peekNext {passage between later : Passage} {first second : Option Char} :
      Answers passage .next (.character first) between →
      Answers between .next (.character second) later →
      Answers passage .peekNext (.character second) passage
  | consumeIf {before after : List Char} {expected : Char} :
      Answers ⟨before, expected :: after⟩ (.consumeIf expected) (.consumed true)
        ⟨before ++ [expected], after⟩
  | consumeIfOther {passage : Passage} {expected : Char} :
      passage.remaining.head? ≠ some expected →
      Answers passage (.consumeIf expected) (.consumed false) passage
  | consumeWhile {before text run after : List Char} {accepts : Char → Bool} :
      IsLongestRun accepts text run → text = run ++ after →
      Answers ⟨before, text⟩ (.consumeWhile accepts) .done ⟨before ++ run, after⟩

/-- What a call comes to among several divided texts. Only the one that is asked may change. -/
inductive Serves : List Passage → Call → Option Reply → List Passage → Prop where
  | ask {passages : List Passage} {number : Nat} {passage later : Passage} {request : Request}
      {reply : Reply} :
      passages[number]? = some passage → Answers passage request reply later →
      Serves passages (.ask number request) (some reply) (passages.set number later)
  | clone {passages : List Passage} {number : Nat} {passage : Passage} :
      passages[number]? = some passage →
      Serves passages (.clone number) (some (.cloned passages.length)) (passages ++ [passage])
  | askNobody {passages : List Passage} {number : Nat} {request : Request} :
      passages[number]? = none → Serves passages (.ask number request) none passages
  | cloneNobody {passages : List Passage} {number : Nat} :
      passages[number]? = none → Serves passages (.clone number) none passages

/-- What calls come to one after the other. -/
inductive Course : List Passage → List Call → List (Option Reply) → List Passage → Prop where
  | nil {passages : List Passage} : Course passages [] [] passages
  | cons {passages later last : List Passage} {call : Call} {calls : List Call}
      {reply : Option Reply} {replies : List (Option Reply)} :
      Serves passages call reply later → Course later calls replies last →
      Course passages (call :: calls) (reply :: replies) last

end Passage

/-! ## Longest runs -/

/-- A run of accepted characters is the longest where a character follows that is not. -/
theorem isLongestRun_of_stop {accepts : Char → Bool} {run after : List Char}
    (inside : ∀ character ∈ run, accepts character = true)
    (outside : ∀ character ∈ after.head?, accepts character = false) :
    IsLongestRun accepts (run ++ after) run := by
  constructor
  case begins => exact List.prefix_append run after
  case accepted => exact inside
  case longest =>
    intro other begins accepted
    obtain ⟨behind, whole⟩ := begins
    obtain ⟨more, rfl, -⟩ | ⟨more, rfl, rest⟩ := List.append_eq_append_iff.mp whole
    · rw [List.length_append]
      exact Nat.le_add_right _ _
    · -- A longer run would go on with the character that stops this one.
      cases more with
      | nil => simp
      | cons first more =>
          have refused : accepts first = false := outside first (by simp [rest])
          have taken := accepted first (by simp)
          rw [refused] at taken
          cases taken

theorem IsLongestRun.unique {accepts : Char → Bool} {text left right : List Char}
    (leftRun : IsLongestRun accepts text left) (rightRun : IsLongestRun accepts text right) :
    left = right := by
  have longer := leftRun.longest right rightRun.begins rightRun.accepted
  have shorter := rightRun.longest left leftRun.begins leftRun.accepted
  have within := List.prefix_of_prefix_length_le leftRun.begins rightRun.begins shorter
  exact within.eq_of_length (Nat.le_antisymm shorter longer)

namespace Passage

variable {passage later otherLater : Passage} {passages last otherLast : List Passage}

/-- There is one answer to a request, and one division behind it. -/
theorem Answers.next_unique {reply other : Cursor.Reply}
    (answers : Answers passage .next reply later)
    (otherAnswers : Answers passage .next other otherLater) :
    reply = other ∧ later = otherLater := by
  cases answers with
  | next =>
      cases otherAnswers
      exact ⟨rfl, rfl⟩
  | nextAtEnd =>
      cases otherAnswers
      exact ⟨rfl, rfl⟩

theorem Answers.unique {request : Cursor.Request} {reply other : Cursor.Reply}
    (answers : Answers passage request reply later)
    (otherAnswers : Answers passage request other otherLater) :
    reply = other ∧ later = otherLater := by
  cases answers with
  | next => exact Answers.next.next_unique otherAnswers
  | nextAtEnd => exact Answers.nextAtEnd.next_unique otherAnswers
  | peek reads =>
      cases otherAnswers with
      | peek otherReads => exact ⟨(reads.next_unique otherReads).1, rfl⟩
  | peekNext reads readsOn =>
      cases otherAnswers with
      | peekNext otherReads otherReadsOn =>
          obtain ⟨-, rfl⟩ := reads.next_unique otherReads
          exact ⟨(readsOn.next_unique otherReadsOn).1, rfl⟩
  | consumeIf =>
      cases otherAnswers with
      | consumeIf => exact ⟨rfl, rfl⟩
      | consumeIfOther differs => exact absurd rfl differs
  | consumeIfOther differs =>
      cases otherAnswers with
      | consumeIf => exact absurd rfl differs
      | consumeIfOther => exact ⟨rfl, rfl⟩
  | consumeWhile longest whole =>
      cases otherAnswers with
      | consumeWhile otherLongest otherWhole =>
          obtain rfl := longest.unique otherLongest
          obtain rfl := List.append_cancel_left (whole.symm.trans otherWhole)
          exact ⟨rfl, rfl⟩

theorem Serves.unique {call : Cursor.Call} {reply other : Option Cursor.Reply}
    {later otherLater : List Passage} (serves : Serves passages call reply later)
    (otherServes : Serves passages call other otherLater) :
    reply = other ∧ later = otherLater := by
  cases serves with
  | ask found answers =>
      cases otherServes with
      | ask otherFound otherAnswers =>
          obtain rfl := Option.some.inj (found.symm.trans otherFound)
          obtain ⟨rfl, rfl⟩ := answers.unique otherAnswers
          exact ⟨rfl, rfl⟩
      | askNobody nobody => cases found.symm.trans nobody
  | clone found =>
      cases otherServes with
      | clone otherFound =>
          obtain rfl := Option.some.inj (found.symm.trans otherFound)
          exact ⟨rfl, rfl⟩
      | cloneNobody nobody => cases found.symm.trans nobody
  | askNobody nobody =>
      cases otherServes with
      | ask found => cases found.symm.trans nobody
      | askNobody => exact ⟨rfl, rfl⟩
  | cloneNobody nobody =>
      cases otherServes with
      | clone found => cases found.symm.trans nobody
      | cloneNobody => exact ⟨rfl, rfl⟩

theorem Course.unique {calls : List Cursor.Call} {replies others : List (Option Cursor.Reply)}
    (course : Course passages calls replies last)
    (otherCourse : Course passages calls others otherLast) :
    replies = others ∧ last = otherLast := by
  induction course generalizing others with
  | nil =>
      cases otherCourse
      exact ⟨rfl, rfl⟩
  | cons serves _ ih =>
      cases otherCourse with
      | cons otherServes otherCourse =>
          obtain ⟨rfl, rfl⟩ := serves.unique otherServes
          obtain ⟨rfl, rfl⟩ := ih otherCourse
          exact ⟨rfl, rfl⟩

end Passage

/-! ## Where a cursor stands -/

namespace Cursor

variable {cursor : Cursor} {source : String} {text : List Char}

/-- The text of a cursor, divided where it stands. -/
def passage (cursor : Cursor) : Passage where
  consumed := cursor.source.toList.take (cursor.source.toList.length - cursor.rest.length)
  remaining := cursor.rest

/-- A cursor that stands in a text. What it has read and what it has not make up the text.
Its offset counts the bytes of what it has read, so a character begins or the text ends
there. Its line counts the line feeds. -/
structure Stands (cursor : Cursor) (source : String) : Prop where
  same : cursor.source = source
  text : source.toList = cursor.passage.consumed ++ cursor.passage.remaining
  offset : cursor.offset = (String.ofList cursor.passage.consumed).utf8ByteSize
  boundary : (String.Pos.Raw.mk cursor.offset).IsValid source
  within : cursor.offset ≤ source.utf8ByteSize
  line : cursor.line = 1 + cursor.passage.consumed.count '\n'

@[simp] theorem utf8ByteSize_ofList (text : List Char) :
    (String.ofList text).utf8ByteSize = byteSize text := by
  induction text with
  | nil => rfl
  | cons character text ih =>
      rw [String.ofList_cons, String.utf8ByteSize_append, String.utf8ByteSize_singleton, ih]
      rfl

theorem Consumed.passage_eq (consumed : cursor.Consumed text) :
    cursor.passage = ⟨text, cursor.rest⟩ := by
  rw [passage, consumed.source, List.length_append, Nat.add_sub_cancel, List.take_left]

theorem Consumed.stands (consumed : cursor.Consumed text) : cursor.Stands cursor.source := by
  have offset : cursor.offset = (String.ofList text).utf8ByteSize := by
    rw [consumed.offset, utf8ByteSize_ofList]
  have boundary : (String.Pos.Raw.mk cursor.offset).IsValid cursor.source := by
    apply String.Pos.Raw.isValid_iff_exists_append.mpr
    refine ⟨String.ofList text, String.ofList cursor.rest, ?_, ?_⟩
    · rw [← String.ofList_append, ← consumed.source, String.ofList_toList]
    · rw [offset]
      rfl
  constructor
  case same => rfl
  case text =>
    rw [consumed.passage_eq]
    exact consumed.source
  case offset => rw [consumed.passage_eq, offset]
  case boundary => exact boundary
  case within => exact boundary.le_utf8ByteSize
  case line =>
    rw [consumed.passage_eq]
    exact consumed.line

theorem Stands.consumed (stands : cursor.Stands source) :
    cursor.Consumed cursor.passage.consumed := by
  constructor
  · rw [stands.same]
    exact stands.text
  · exact stands.line

theorem Consumed.stands_in (consumed : cursor.Consumed text) (same : cursor.source = source) :
    cursor.Stands source :=
  same ▸ consumed.stands

/-! ## What requests come to -/

open Passage (Answers Serves Course)

theorem Stands.next (stands : cursor.Stands source) :
    Answers cursor.passage .next (.character cursor.peek) cursor.skip.passage ∧
      cursor.skip.Stands source := by
  have consumed := stands.consumed
  cases ahead : cursor.rest with
  | nil =>
      have stays : cursor.skip = cursor := congrArg Prod.snd (next_of_nil ahead)
      rw [stays, peek, consumed.passage_eq, ahead]
      exact ⟨.nextAtEnd, stands⟩
  | cons first after =>
      have moved := consumed.skip ahead
      have behind := skip_rest_of_cons ahead
      rw [moved.passage_eq, behind, peek, consumed.passage_eq, ahead]
      exact ⟨.next, moved.stands_in (by rw [skip_source, stands.same])⟩

/-- Every request is answered as it is for a divided text. -/
theorem Request.perform_answers (stands : cursor.Stands source) (request : Request) :
    Answers cursor.passage request (request.perform cursor).1 (request.perform cursor).2.passage ∧
      (request.perform cursor).2.Stands source := by
  have consumed := stands.consumed
  cases request with
  | next => exact stands.next
  | peek => exact ⟨.peek stands.next.1, stands⟩
  | peekNext =>
      have second : cursor.peekNext = cursor.skip.peek := by
        rw [Cursor.peekNext, Cursor.peek, skip_rest, List.head?_tail]
      rw [perform, second]
      exact ⟨.peekNext stands.next.1 stands.next.2.next.1, stands⟩
  | consumeIf expected =>
      by_cases here : cursor.peek = some expected
      · obtain ⟨after, ahead⟩ := List.head?_eq_some_iff.mp here
        have moved := consumed.skip ahead
        have behind := skip_rest_of_cons ahead
        rw [perform, consumeIf_of_eq ahead, moved.passage_eq, consumed.passage_eq, ahead, behind]
        exact ⟨.consumeIf, stands.next.2⟩
      · rw [perform, Cursor.consumeIf, if_neg here]
        exact ⟨.consumeIfOther here, stands⟩
  | consumeWhile accepts =>
      obtain ⟨run, after, ahead, inside, outside⟩ := Text.exists_span accepts cursor.rest
      have moved := consumed.advance ahead
      have behind := advance_rest_of_append ahead
      rw [perform, consumeWhile_eq ahead inside outside, moved.passage_eq, behind,
        consumed.passage_eq, ahead]
      exact ⟨.consumeWhile (isLongestRun_of_stop inside outside) rfl,
        moved.stands_in (by rw [advance_source, stands.same])⟩

/-! ## What calls come to -/

variable {cursors : List Cursor}

theorem getElem?_passages {number : Nat} {found : Option Cursor}
    (here : cursors[number]? = found) :
    (cursors.map passage)[number]? = found.map passage := by
  rw [List.getElem?_map, here]

theorem Call.perform_serves (stand : ∀ cursor ∈ cursors, cursor.Stands source) (call : Call) :
    Serves (cursors.map passage) call (call.perform cursors).1
        ((call.perform cursors).2.map passage) ∧
      ∀ cursor ∈ (call.perform cursors).2, cursor.Stands source := by
  cases call with
  | ask number request =>
      cases found : cursors[number]? with
      | none =>
          simp only [perform, found]
          exact ⟨.askNobody (getElem?_passages found), stand⟩
      | some cursor =>
          have here := request.perform_answers (stand cursor (List.mem_of_getElem? found))
          simp only [perform, found, List.map_set]
          refine ⟨.ask (getElem?_passages found) here.1, ?_⟩
          intro other member
          obtain before | rfl := List.mem_or_eq_of_mem_set member
          · exact stand other before
          · exact here.2
  | clone number =>
      cases found : cursors[number]? with
      | none =>
          simp only [perform, found]
          exact ⟨.cloneNobody (getElem?_passages found), stand⟩
      | some cursor =>
          simp only [perform, found, List.map_append, List.map_singleton]
          constructor
          · have served := Serves.clone (getElem?_passages found)
            rwa [List.length_map] at served
          · intro other member
            obtain before | rfl := List.mem_append.mp member |>.imp_right List.mem_singleton.mp
            · exact stand other before
            · exact stand other (List.mem_of_getElem? found)

theorem history_course (stand : ∀ cursor ∈ cursors, cursor.Stands source) (calls : List Call) :
    Course (cursors.map passage) calls (history cursors calls).1
        ((history cursors calls).2.map passage) ∧
      ∀ cursor ∈ (history cursors calls).2, cursor.Stands source := by
  induction calls generalizing cursors with
  | nil => exact ⟨.nil, stand⟩
  | cons call calls ih =>
      obtain ⟨serves, standBehind⟩ := call.perform_serves stand
      obtain ⟨course, standLast⟩ := ih standBehind
      exact ⟨.cons serves course, standLast⟩

/-! ## Cursors that are left alone -/

/-- Whatever else is called for, a cursor that is not asked stays as it is. -/
theorem Call.perform_getElem? {number : Nat} (found : cursors[number]? = some cursor)
    {call : Call} (apart : ∀ request, call ≠ .ask number request) :
    (call.perform cursors).2[number]? = some cursor := by
  cases call with
  | ask asked request =>
      have other : asked ≠ number := by
        rintro rfl
        exact apart request rfl
      rw [perform]
      split
      next => rw [List.getElem?_set_ne other, found]
      next => exact found
  | clone cloned =>
      have present : number < cursors.length := (List.getElem?_eq_some_iff.mp found).1
      rw [perform]
      split
      next => rw [List.getElem?_append_left present, found]
      next => exact found

theorem history_getElem? {number : Nat} (found : cursors[number]? = some cursor)
    {calls : List Call} (apart : ∀ request, .ask number request ∉ calls) :
    (history cursors calls).2[number]? = some cursor := by
  induction calls generalizing cursors with
  | nil => exact found
  | cons call calls ih =>
      apply ih
      · apply Call.perform_getElem? found
        rintro request rfl
        exact apart request List.mem_cons_self
      · intro request member
        exact apart request (List.mem_cons_of_mem _ member)

/-! ## Cursors in one text -/

/-- A cursor that some calls lead to from the start of a text. -/
def Reached (source : String) (cursor : Cursor) : Prop :=
  ∃ calls, cursor ∈ (history [start source] calls).2

theorem start_stand (source : String) : ∀ cursor ∈ [start source], cursor.Stands source := by
  intro cursor member
  obtain rfl := List.mem_singleton.mp member
  exact (start_consumed source).stands

theorem Reached.stands (reached : Reached source cursor) : cursor.Stands source := by
  obtain ⟨calls, member⟩ := reached
  exact (history_course (start_stand source) calls).2 cursor member

/-- Cursors that begin with one at the start of a text do what is done to the divided text,
and nothing else can be: their replies are the ones of a course of the divided texts. They
stand where the course leads. A cursor that is not asked, be it a clone or what was cloned,
stays as it is. -/
theorem cursors_refine_passages (source : String) (calls : List Call) :
    let outcome := history [start source] calls
    (∀ replies passages, Course [⟨[], source.toList⟩] calls replies passages ↔
      replies = outcome.1 ∧ passages = outcome.2.map passage) ∧
    (∀ cursor ∈ outcome.2, cursor.Stands source) ∧
    ∀ number cursor, outcome.2[number]? = some cursor →
      ∀ more, (∀ request, .ask number request ∉ more) →
        (history outcome.2 more).2[number]? = some cursor := by
  intro outcome
  obtain ⟨course, stand⟩ := history_course (start_stand source) calls
  have begins : [start source].map passage = [⟨[], source.toList⟩] :=
    congrArg (fun first => [first]) (start_consumed source).passage_eq
  rw [begins] at course
  refine ⟨fun replies passages => ⟨?_, ?_⟩, stand, ?_⟩
  · intro otherCourse
    exact otherCourse.unique course
  · rintro ⟨rfl, rfl⟩
    exact course
  · intro number cursor found more apart
    exact history_getElem? found apart

/-- A clone stays where it was made, and looks ahead without counting the line. -/
example :
    let outcome := history [start "é\n!"] [.ask 0 .next, .clone 0, .ask 0 .next, .ask 1 .peekNext]
    outcome.1.getLast? = some (some (.character (some '!'))) ∧
      outcome.2.map (fun cursor => (cursor.offset, cursor.line)) = [(3, 2), (2, 1)] := by
  decide +kernel

end Cursor

end Reckon
