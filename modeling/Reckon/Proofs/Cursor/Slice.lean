import Reckon.Proofs.Cursor.Passage

/-!
# Slices and places

Two cursors in one text delimit a slice of it, and two that are equal have the same before
them and behind them.
-/

/-!
## Slices between cursors

Two cursors delimit a slice if they stand in equal texts and the first is not behind the
second. This module compares the slice with the bytes of the text between their offsets and
with what is read from the first cursor on up to the offset of the second.
-/

namespace Reckon

/-! ## Bytes of a text -/

/-- Why two bytes do not delimit a part of a text. -/
inductive Text.RangeError where
  | outside
  | reversed
  | insideCharacter
  deriving DecidableEq

/-- The part of a text from one byte up to another. Both have to be within the text and in
order, and none of them inside a character. -/
def Text.range (text : String) (first last : Nat) : Except Text.RangeError String :=
  if text.utf8ByteSize < first ∨ text.utf8ByteSize < last then .error .outside
  else if last < first then .error .reversed
  else if whole :
      (String.Pos.Raw.mk first).IsValid text ∧ (String.Pos.Raw.mk last).IsValid text then
    .ok (@String.extract text ⟨⟨first⟩, whole.1⟩ ⟨⟨last⟩, whole.2⟩)
  else .error .insideCharacter

/-- Between the sizes of two beginnings of a text lies what the longer one has more. -/
theorem Text.range_append (before piece after : String) :
    Text.range (before ++ piece ++ after) before.utf8ByteSize (before ++ piece).utf8ByteSize =
      .ok piece := by
  have size : (before ++ piece).utf8ByteSize = before.utf8ByteSize + piece.utf8ByteSize :=
    String.utf8ByteSize_append
  have sizeAll : (before ++ piece ++ after).utf8ByteSize =
      (before ++ piece).utf8ByteSize + after.utf8ByteSize := String.utf8ByteSize_append
  have begins : (String.Pos.Raw.mk before.utf8ByteSize).IsValid (before ++ piece ++ after) :=
    String.Pos.Raw.isValid_iff_exists_append.mpr ⟨before, piece ++ after, String.append_assoc, rfl⟩
  have ends : (String.Pos.Raw.mk (before ++ piece).utf8ByteSize).IsValid
      (before ++ piece ++ after) :=
    String.Pos.Raw.isValid_iff_exists_append.mpr ⟨before ++ piece, after, rfl, rfl⟩
  have bytes : (before ++ piece ++ after).toByteArray.extract before.utf8ByteSize
      (before ++ piece).utf8ByteSize = piece.toByteArray := by
    rw [size, String.toByteArray_append, String.toByteArray_append, ← String.size_toByteArray,
      ← String.size_toByteArray, ByteArray.extract_append,
      ByteArray.extract_append_eq_right rfl rfl, ByteArray.size_append, Nat.sub_self]
    simp
  rw [Text.range, if_neg (by omega), if_neg (by omega), dif_pos ⟨begins, ends⟩, Except.ok.injEq,
    ← String.toByteArray_inj, String.toByteArray_extract]
  exact bytes

theorem Text.range_reversed {text : String} {first last : Nat}
    (within : first ≤ text.utf8ByteSize) (reversed : last < first) :
    Text.range text first last = .error .reversed := by
  rw [Text.range, if_neg (by omega), if_pos reversed]

namespace Cursor

variable {cursor later last : Cursor} {source target : String} {text piece : List Char}

/-- What two cursors rely on in vain when the bytes between their offsets are sliced out. -/
inductive SlicePanic where
  | differentSources
  | range (error : Text.RangeError)
  deriving DecidableEq

def SliceError.panic : SliceError → SlicePanic
  | .differentSources => .differentSources
  | .reversed => .range .reversed

/-- The bytes of the text of a cursor up to the offset of another in an equal text. -/
def bytesUntil (cursor later : Cursor) : Except SlicePanic String :=
  if cursor.source = later.source then
    (Text.range cursor.source cursor.offset later.offset).mapError .range
  else .error .differentSources

/-- A text that is read from a cursor on, character by character, until an offset is reached
for the first time. -/
inductive ReadsTo : Cursor → Nat → List Char → Prop where
  | reached {cursor : Cursor} : ReadsTo cursor cursor.offset []
  | next {cursor later : Cursor} {offset : Nat} {first : Char} {piece : List Char} :
      cursor.offset ≠ offset → cursor.next = (some first, later) → ReadsTo later offset piece →
      ReadsTo cursor offset (first :: piece)

/-! ## What lies between two cursors 
-/

theorem byteSize_pos {text : List Char} (nonempty : text ≠ []) : 0 < byteSize text := by
  cases text with
  | nil => exact absurd rfl nonempty
  | cons character text => exact Nat.add_pos_left character.utf8Size_pos _

/-- Of two cursors in one text, the one with the lesser offset has more before it. -/
theorem Consumed.exists_between {front : List Char} (consumed : cursor.Consumed text)
    (consumedLater : later.Consumed front) (same : cursor.source = later.source)
    (ordered : cursor.offset ≤ later.offset) :
    ∃ piece, cursor.rest = piece ++ later.rest := by
  have split : text ++ cursor.rest = front ++ later.rest := by
    rw [← consumed.source, ← consumedLater.source, same]
  obtain ⟨piece, -, ahead⟩ | ⟨back, longer, behind⟩ := List.append_eq_append_iff.mp split
  · exact ⟨piece, ahead⟩
  · rw [consumed.offset, consumedLater.offset, longer, byteSize_append] at ordered
    have nothing : back = [] := by
      by_contra nonempty
      have positive := byteSize_pos nonempty
      omega
    exact ⟨[], by rw [behind, nothing]; rfl⟩

/-- A slice is what the rest of one cursor has before the rest of the other. -/
theorem sliceUntil_eq_ok_iff (stands : cursor.Stands source) (standsLater : later.Stands target)
    {slice : String} :
    cursor.sliceUntil later = .ok slice ↔
      source = target ∧ cursor.rest = slice.toList ++ later.rest := by
  constructor
  · intro sliced
    have same : cursor.source = later.source := by
      by_contra different
      rw [sliceUntil, if_pos different] at sliced
      cases sliced
    have ordered : cursor.offset ≤ later.offset := by
      by_contra behind
      rw [sliceUntil, if_neg (not_not_intro same), if_pos (Nat.not_le.mp behind)] at sliced
      cases sliced
    obtain ⟨piece, ahead⟩ := stands.consumed.exists_between standsLater.consumed same ordered
    rw [sliceUntil_of_rest same ahead] at sliced
    cases sliced
    refine ⟨?_, ?_⟩
    · rw [← stands.same, ← standsLater.same, same]
    · rw [String.toList_ofList, ahead]
  · rintro ⟨equal, ahead⟩
    have same : cursor.source = later.source := by rw [stands.same, standsLater.same, equal]
    rw [sliceUntil_of_rest same ahead, String.ofList_toList]

theorem Consumed.offset_of_rest (consumed : cursor.Consumed text)
    (same : cursor.source = later.source) (ahead : cursor.rest = piece ++ later.rest) :
    later.offset = byteSize (text ++ piece) := by
  rw [Cursor.offset, ← same, consumed.source, ahead, ← List.append_assoc, byteSize_append,
    Nat.add_sub_cancel]

theorem Consumed.readsTo (consumed : cursor.Consumed text) (same : cursor.source = later.source)
    (ahead : cursor.rest = piece ++ later.rest) : cursor.ReadsTo later.offset piece := by
  have offset := consumed.offset_of_rest same ahead
  induction piece generalizing cursor text with
  | nil =>
      rw [offset, List.append_nil, ← consumed.offset]
      exact .reached
  | cons first piece ih =>
      -- Every character has bytes, so the offset is not reached before the piece is read.
      have apart : cursor.offset ≠ later.offset := by
        have positive := byteSize_pos (List.cons_ne_nil first piece)
        rw [offset, consumed.offset, byteSize_append]
        omega
      have behind : cursor.skip.rest = piece ++ later.rest := skip_rest_of_cons ahead
      have sameBehind : cursor.skip.source = later.source := by rw [skip_source, same]
      have moved := consumed.skip ahead
      exact .next apart (next_of_cons ahead)
        (ih moved sameBehind behind (moved.offset_of_rest sameBehind behind))

theorem ReadsTo.unique {offset : Nat} {other : List Char} (reads : cursor.ReadsTo offset piece)
    (readsOther : cursor.ReadsTo offset other) : piece = other := by
  induction reads generalizing other with
  | reached =>
      cases readsOther with
      | reached => rfl
      | next apart => exact absurd rfl apart
  | next apart nextHere _ ih =>
      cases readsOther with
      | reached => exact absurd rfl apart
      | next _ nextOther readsOther =>
          rw [nextHere] at nextOther
          cases nextOther
          rw [ih readsOther]

/-- A slice of characters is the slice of the bytes that encode them, and fails alike. -/
theorem bytesUntil_eq (stands : cursor.Stands source) (standsLater : later.Stands target) :
    cursor.bytesUntil later = (cursor.sliceUntil later).mapError SliceError.panic := by
  by_cases same : cursor.source = later.source
  · rw [bytesUntil, if_pos same]
    by_cases ordered : cursor.offset ≤ later.offset
    · have consumed := stands.consumed
      obtain ⟨piece, ahead⟩ := consumed.exists_between standsLater.consumed same ordered
      have whole : cursor.source = String.ofList cursor.passage.consumed ++ String.ofList piece ++
          String.ofList later.rest := by
        rw [← String.ofList_append, ← String.ofList_append, List.append_assoc, ← ahead,
          ← consumed.source, String.ofList_toList]
      rw [sliceUntil_of_rest same ahead, consumed.offset_of_rest same ahead, consumed.offset,
        ← utf8ByteSize_ofList, ← utf8ByteSize_ofList, String.ofList_append, whole,
        Text.range_append]
      rfl
    · have behind := Nat.not_le.mp ordered
      have within : cursor.offset ≤ cursor.source.utf8ByteSize := by
        rw [stands.same]
        exact stands.within
      rw [Text.range_reversed within behind, sliceUntil, if_neg (not_not_intro same),
        if_pos behind]
      rfl
  · rw [bytesUntil, if_neg same, sliceUntil, if_pos same]
    rfl

theorem sliceUntil_eq_different_iff :
    cursor.sliceUntil later = .error .differentSources ↔ cursor.source ≠ later.source := by
  rw [sliceUntil]
  split
  next different => exact ⟨fun _ => different, fun _ => rfl⟩
  next same =>
    refine ⟨fun sliced => ?_, fun different => absurd different same⟩
    split at sliced <;> cases sliced

theorem sliceUntil_eq_reversed_iff :
    cursor.sliceUntil later = .error .reversed ↔
      cursor.source = later.source ∧ later.offset < cursor.offset := by
  rw [sliceUntil]
  split
  next different =>
    refine ⟨fun sliced => ?_, fun reversed => absurd reversed.1 different⟩
    cases sliced
  next same =>
    split
    next behind => exact ⟨fun _ => ⟨not_not.mp same, behind⟩, fun _ => rfl⟩
    next ordered =>
      refine ⟨fun sliced => ?_, fun reversed => absurd reversed.2 ordered⟩
      cases sliced

/-- Two cursors delimit a slice exactly if their texts are equal and the first is not behind
the second. The slice is what is read on the way from the one to the other, and slices of
consecutive parts make up the slice of the whole. Slicing out the bytes between the offsets
comes to the same, so it fails for no other reason, and never inside a character. -/
theorem slices_exact {other : String} (reached : Reached source cursor)
    (reachedLater : Reached target later) (reachedLast : Reached other last) :
    (∀ slice, cursor.sliceUntil later = .ok slice ↔
      source = target ∧ cursor.offset ≤ later.offset ∧
        cursor.ReadsTo later.offset slice.toList) ∧
    (source = target → cursor.offset ≤ later.offset →
      ∃ slice, cursor.sliceUntil later = .ok slice) ∧
    (cursor.sliceUntil later = .error .differentSources ↔ source ≠ target) ∧
    (cursor.sliceUntil later = .error .reversed ↔
      source = target ∧ later.offset < cursor.offset) ∧
    cursor.bytesUntil later = (cursor.sliceUntil later).mapError SliceError.panic ∧
    ∀ front back, cursor.sliceUntil later = .ok front → later.sliceUntil last = .ok back →
      cursor.sliceUntil last = .ok (front ++ back) := by
  have stands := reached.stands
  have standsLater := reachedLater.stands
  have standsLast := reachedLast.stands
  have between : source = target → cursor.offset ≤ later.offset →
      ∃ piece, cursor.rest = piece ++ later.rest ∧ cursor.ReadsTo later.offset piece := by
    intro equal ordered
    have same : cursor.source = later.source := by rw [stands.same, standsLater.same, equal]
    obtain ⟨piece, ahead⟩ := stands.consumed.exists_between standsLater.consumed same ordered
    exact ⟨piece, ahead, stands.consumed.readsTo same ahead⟩
  refine ⟨fun slice => ⟨?_, ?_⟩, ?_, ?_, ?_, bytesUntil_eq stands standsLater, ?_⟩
  · intro sliced
    obtain ⟨equal, ahead⟩ := (sliceUntil_eq_ok_iff stands standsLater).mp sliced
    have same : cursor.source = later.source := by rw [stands.same, standsLater.same, equal]
    refine ⟨equal, ?_, stands.consumed.readsTo same ahead⟩
    rw [stands.consumed.offset_of_rest same ahead, stands.consumed.offset, byteSize_append]
    exact Nat.le_add_right _ _
  · rintro ⟨equal, ordered, reads⟩
    obtain ⟨piece, ahead, readsPiece⟩ := between equal ordered
    obtain rfl := reads.unique readsPiece
    exact (sliceUntil_eq_ok_iff stands standsLater).mpr ⟨equal, ahead⟩
  · intro equal ordered
    obtain ⟨piece, ahead, -⟩ := between equal ordered
    refine ⟨String.ofList piece, (sliceUntil_eq_ok_iff stands standsLater).mpr ⟨equal, ?_⟩⟩
    rw [String.toList_ofList, ahead]
  · rw [sliceUntil_eq_different_iff, stands.same, standsLater.same]
  · rw [sliceUntil_eq_reversed_iff, stands.same, standsLater.same]
  · intro front back sliced slicedBehind
    obtain ⟨rfl, ahead⟩ := (sliceUntil_eq_ok_iff stands standsLater).mp sliced
    obtain ⟨rfl, behind⟩ := (sliceUntil_eq_ok_iff standsLater standsLast).mp slicedBehind
    apply (sliceUntil_eq_ok_iff stands standsLast).mpr
    refine ⟨rfl, ?_⟩
    rw [ahead, behind, String.toList_append, List.append_assoc]

/-- Slices around a character of two bytes, back and forth, and none between two texts. -/
theorem slices_exact_accent :
    let text := "é\n!"
    let first := (start text).skip
    let last := first.skip.skip
    (Reached text (start text) ∧ Reached text first ∧ Reached text last) ∧
      first.offset = 2 ∧ (start text).sliceUntil first = .ok "é" ∧
      first.sliceUntil last = .ok "\n!" ∧ (start text).sliceUntil last = .ok ("é" ++ "\n!") ∧
      first.ReadsTo last.offset ['\n', '!'] ∧ last.bytesUntil first = .error (.range .reversed) ∧
      first.sliceUntil (start "e\n!") = .error .differentSources := by
  intro text first last
  have reachedStart : Reached text (start text) := ⟨[], List.mem_singleton_self _⟩
  have reachedFirst : Reached text first := ⟨[.ask 0 .next], List.mem_singleton_self _⟩
  have reachedLast : Reached text last :=
    ⟨[.ask 0 .next, .ask 0 .next, .ask 0 .next], List.mem_singleton_self _⟩
  have reachedOther : Reached "e\n!" (start "e\n!") := ⟨[], List.mem_singleton_self _⟩
  have front : (start text).sliceUntil first = .ok "é" := by decide +kernel
  have back : first.sliceUntil last = .ok "\n!" := by decide +kernel
  obtain ⟨-, -, -, -, -, joins⟩ := slices_exact reachedStart reachedFirst reachedLast
  obtain ⟨reads, -⟩ := slices_exact reachedFirst reachedLast reachedLast
  obtain ⟨-, -, -, reversed, bytes, -⟩ := slices_exact reachedLast reachedFirst reachedLast
  obtain ⟨-, -, different, -⟩ := slices_exact reachedFirst reachedOther reachedOther
  have behind : last.sliceUntil first = .error .reversed :=
    reversed.mpr ⟨rfl, by decide +kernel⟩
  refine ⟨⟨reachedStart, reachedFirst, reachedLast⟩, by decide +kernel, front, back,
    joins _ _ front back, ?_, ?_, different.mpr (by decide)⟩
  · exact ((reads "\n!").mp back).2.2
  · rw [bytes, behind]
    rfl

end Cursor

end Reckon

/-!
## Cursors that are told apart

Cursors are compared by their texts and by what is before them, and neither by line nor by
offset. This module proves that this tells apart just those cursors that can be told apart
by what is asked of them: equal ones answer alike from there on, whatever led to them.
-/

namespace Reckon.Cursor

variable {cursor other : Cursor} {source target : String} {text back : List Char}

/-- What is seen of a cursor when it is asked one thing after the other: every reply, and the
offset and the line behind it. -/
def trace (cursor : Cursor) : List Request → List (Reply × Nat × Nat)
  | [] => []
  | request :: requests =>
      let later := (request.perform cursor).2
      ((request.perform cursor).1, later.offset, later.line) :: later.trace requests

theorem beq_iff : (cursor == other) = true ↔
    cursor.source = other.source ∧ cursor.rest = other.rest := by
  change (cursor.source == other.source && cursor.rest == other.rest) = true ↔ _
  rw [Bool.and_eq_true, beq_iff_eq, beq_iff_eq]

/-- The line is told by the text and the rest of it. -/
theorem Consumed.eq_of_rest (consumed : cursor.Consumed text)
    (consumedOther : other.Consumed back) (same : cursor.source = other.source)
    (rest : cursor.rest = other.rest) : cursor = other := by
  have behind : text = back := by
    have split := consumed.source
    rw [same, consumedOther.source, rest] at split
    exact (List.append_cancel_right split).symm
  have line : cursor.line = other.line := by rw [consumed.line, consumedOther.line, behind]
  cases cursor
  cases other
  cases same
  cases rest
  cases line
  rfl

/-- In one text there is one rest from an offset on, however often the text repeats itself. -/
theorem Consumed.rest_eq_of_offset (consumed : cursor.Consumed text)
    (consumedOther : other.Consumed back) (same : cursor.source = other.source)
    (offset : cursor.offset = other.offset) : cursor.rest = other.rest := by
  obtain ⟨piece, ahead⟩ := consumed.exists_between consumedOther same (Nat.le_of_eq offset)
  have nothing : piece = [] := by
    by_contra nonempty
    have positive := byteSize_pos nonempty
    have further := consumed.offset_of_rest same ahead
    rw [← offset, consumed.offset, byteSize_append] at further
    omega
  rw [ahead, nothing, List.nil_append]

/-- Cursors that compare equal are one and the same. -/
theorem Stands.beq_iff_eq (stands : cursor.Stands source) (standsOther : other.Stands target) :
    (cursor == other) = true ↔ cursor = other := by
  rw [beq_iff]
  constructor
  · rintro ⟨same, rest⟩
    exact stands.consumed.eq_of_rest standsOther.consumed same rest
  · rintro rfl
    exact ⟨rfl, rfl⟩

theorem Stands.beq_iff_offset (stands : cursor.Stands source)
    (standsOther : other.Stands target) :
    (cursor == other) = true ↔ source = target ∧ cursor.offset = other.offset := by
  rw [beq_iff, ← stands.same, ← standsOther.same]
  constructor
  · rintro ⟨same, rest⟩
    exact ⟨same, by rw [Cursor.offset, Cursor.offset, same, rest]⟩
  · rintro ⟨same, offset⟩
    exact ⟨same, stands.consumed.rest_eq_of_offset standsOther.consumed same offset⟩

/-- Cursors compare equal exactly if they have the same offset in equal texts. Then nothing
tells them apart: they are on the same line, whatever is asked of both is answered alike and
leads to the same offsets and lines, and with any third cursor they delimit the same slices
or fail alike. Cursors that do not compare equal are told apart by some slice. -/
theorem equality_observational (reached : Reached source cursor)
    (reachedOther : Reached target other) :
    ((cursor == other) = true ↔ source = target ∧ cursor.offset = other.offset) ∧
    ((cursor == other) = true →
      cursor.line = other.line ∧
      (∀ requests, cursor.trace requests = other.trace requests) ∧
      ∀ text third, Reached text third →
        cursor.sliceUntil third = other.sliceUntil third ∧
        third.sliceUntil cursor = third.sliceUntil other) ∧
    ((∀ text third, Reached text third →
      cursor.sliceUntil third = other.sliceUntil third) → (cursor == other) = true) := by
  have stands := reached.stands
  have standsOther := reachedOther.stands
  refine ⟨stands.beq_iff_offset standsOther, ?_, ?_⟩
  · intro equal
    obtain rfl := (stands.beq_iff_eq standsOther).mp equal
    exact ⟨rfl, fun _ => rfl, fun _ _ _ => ⟨rfl, rfl⟩⟩
  · intro alike
    have empty : cursor.sliceUntil cursor = .ok (String.ofList []) := sliceUntil_of_rest rfl rfl
    rw [alike source cursor reached] at empty
    obtain ⟨same, rest⟩ := (sliceUntil_eq_ok_iff standsOther stands).mp empty
    apply beq_iff.mpr
    refine ⟨?_, ?_⟩
    · rw [stands.same, standsOther.same, same]
    · rw [rest, String.toList_ofList, List.nil_append]

/-- Two ways to the last of three lines that read alike. -/
theorem equality_observational_lines :
    let text := "a\na\na"
    let left := (start text).skip.skip.skip.skip
    let right := ((start text).skip.skip.consumeWhile (· != '\n')).skip
    Reached text left ∧ Reached text right ∧ (left == right) = true ∧ left.offset = 4 ∧
      right.offset = 4 ∧ left.line = right.line ∧
      ∀ requests, left.trace requests = right.trace requests := by
  intro text left right
  have reachedLeft : Reached text left :=
    ⟨[.ask 0 .next, .ask 0 .next, .ask 0 .next, .ask 0 .next], List.mem_singleton_self _⟩
  have reachedRight : Reached text right :=
    ⟨[.ask 0 .next, .ask 0 .next, .ask 0 (.consumeWhile (· != '\n')), .ask 0 .next],
      List.mem_singleton_self _⟩
  have offset : left.offset = 4 ∧ right.offset = 4 := by decide +kernel
  obtain ⟨compares, same, -⟩ := equality_observational reachedLeft reachedRight
  have equal : (left == right) = true :=
    compares.mpr ⟨rfl, offset.1.trans offset.2.symm⟩
  exact ⟨reachedLeft, reachedRight, equal, offset.1, offset.2, (same equal).1, (same equal).2.1⟩

end Reckon.Cursor
