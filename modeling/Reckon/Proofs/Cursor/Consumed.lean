import Reckon.Cursor
import Reckon.Proofs.Text

/-!
# The text behind a cursor

A cursor has read a part of its text and has the rest before it. The part that it has
read tells its line and its offset, and of a copy that it left behind it tells which
slice of the text lies between the two.
-/

namespace Reckon

/-- The line that goes on behind a text; the first line goes on behind the empty one. -/
def lineBehind (text : List Char) : Nat := 1 + text.count '\n'

namespace Cursor

variable {cursor : Cursor} {text piece after rest : List Char} {expected : Char}

/-- A cursor that has read a text: the text is what precedes the rest, and the line of
the cursor is the one behind it. -/
structure Consumed (cursor : Cursor) (text : List Char) : Prop where
  source : cursor.source.toList = text ++ cursor.rest
  line : cursor.line = lineBehind text

theorem start_consumed (source : String) : (start source).Consumed [] := ⟨rfl, rfl⟩

/-! ## Moving on -/

@[simp] theorem skip_source (cursor : Cursor) : cursor.skip.source = cursor.source := by
  unfold skip
  split <;> rfl

@[simp] theorem advance_source (cursor : Cursor) (count : Nat) :
    (cursor.advance count).source = cursor.source := by
  induction count generalizing cursor with
  | zero => rfl
  | succ count ih => rw [advance, ih, skip_source]

@[simp] theorem advance_add (cursor : Cursor) (first second : Nat) :
    (cursor.advance first).advance second = cursor.advance (first + second) := by
  induction first generalizing cursor with
  | zero => rw [advance, Nat.zero_add]
  | succ first ih => rw [advance, ih, Nat.succ_add, advance]

@[simp] theorem advance_skip (cursor : Cursor) (count : Nat) :
    (cursor.advance count).skip = cursor.advance (count + 1) :=
  advance_add cursor count 1

theorem skip_rest_of_cons {first : Char} (ahead : cursor.rest = first :: rest) :
    cursor.skip.rest = rest := by
  rw [skip_rest, ahead, List.tail_cons]

theorem advance_rest_of_append (ahead : cursor.rest = piece ++ after) :
    (cursor.advance piece.length).rest = after := by
  rw [advance_rest, ahead, List.drop_left]

theorem advance_two_rest {first second : Char} (ahead : cursor.rest = first :: second :: rest) :
    (cursor.advance 2).rest = rest :=
  skip_rest_of_cons (skip_rest_of_cons ahead)

theorem consumeIf_of_eq (ahead : cursor.rest = expected :: rest) :
    cursor.consumeIf expected = (true, cursor.skip) := by
  rw [consumeIf, peek, ahead, List.head?_cons, if_pos rfl]

theorem consumeIf_of_ne (other : ∀ tail, cursor.rest ≠ expected :: tail) :
    cursor.consumeIf expected = (false, cursor) := by
  rw [consumeIf, peek, if_neg]
  intro head
  obtain ⟨tail, ahead⟩ := List.head?_eq_some_iff.mp head
  exact other tail ahead

theorem consumeIf_fst :
    (cursor.consumeIf expected).1 ↔ ∃ tail, cursor.rest = expected :: tail := by
  rw [consumeIf, peek, ← List.head?_eq_some_iff]
  split
  next head => simp [head]
  next other => simp [other]

theorem next_of_cons {first : Char} (ahead : cursor.rest = first :: rest) :
    cursor.next = (some first, cursor.skip) := by
  rw [next, peek, ahead, List.head?_cons]

theorem next_of_nil (ends : cursor.rest = []) : cursor.next = (none, cursor) := by
  rw [next, peek, skip, ends, List.head?_nil]

/-- To read several characters is to read one after the other, up to the end of the text. -/
theorem nextMany_succ (cursor : Cursor) (count : Nat) :
    cursor.nextMany (count + 1) =
      (cursor.next.1.toList ++ (cursor.next.2.nextMany count).1,
        (cursor.next.2.nextMany count).2) := by
  cases ahead : cursor.rest with
  | nil => simp [nextMany, next_of_nil ahead, ahead]
  | cons first rest =>
      simp [nextMany, next_of_cons ahead, ahead, Nat.succ_min_succ, advance]

theorem skip_line {first : Char} (ahead : cursor.rest = first :: rest) (other : first ≠ '\n') :
    cursor.skip.line = cursor.line := by
  simp only [skip, ahead, if_neg other]

theorem consumeWhile_eq {accepts : Char → Bool} {run after : List Char}
    (ahead : cursor.rest = run ++ after) (inside : ∀ character ∈ run, accepts character = true)
    (outside : ∀ character ∈ after.head?, accepts character = false) :
    cursor.consumeWhile accepts = cursor.advance run.length := by
  rw [consumeWhile, ahead, (Text.span_exact after inside outside).1]

theorem Consumed.skip {character : Char} (consumed : cursor.Consumed text)
    (ahead : cursor.rest = character :: after) :
    cursor.skip.Consumed (text ++ [character]) := by
  obtain ⟨source, line⟩ := consumed
  constructor
  · rw [skip_source, skip_rest, source, ahead, List.append_assoc]
    rfl
  · simp only [Cursor.skip, ahead, line, lineBehind, List.count_append,
      List.count_singleton, beq_iff_eq]
    split <;> rfl

theorem Consumed.advance (consumed : cursor.Consumed text)
    (ahead : cursor.rest = piece ++ after) :
    (cursor.advance piece.length).Consumed (text ++ piece) := by
  induction piece generalizing cursor text with
  | nil => simpa [Cursor.advance] using consumed
  | cons character piece ih =>
      have next := ih (consumed.skip ahead) (by rw [skip_rest, ahead, List.cons_append,
        List.tail_cons])
      simpa [Cursor.advance] using next

/-- Wherever a cursor moves on to, it has read what lies before. -/
theorem Consumed.exists_advance (consumed : cursor.Consumed text) (count : Nat) :
    ∃ before, (cursor.advance count).Consumed before := by
  induction count generalizing cursor text with
  | zero => exact ⟨text, consumed⟩
  | succ count ih =>
      cases ahead : cursor.rest with
      | nil =>
          have stays : cursor.skip = cursor := by rw [Cursor.skip, ahead]
          rw [Cursor.advance, stays]
          exact ih consumed
      | cons character rest => exact ih (consumed.skip ahead)

/-- At the end of the text a cursor is behind all of it. -/
theorem Consumed.atEnd (consumed : cursor.Consumed text) :
    (cursor.advance cursor.rest.length).line = lineBehind cursor.source.toList := by
  have all : cursor.rest = cursor.rest ++ [] := (List.append_nil _).symm
  have ends := consumed.advance all
  rw [ends.line, consumed.source]

/-! ## Slices -/

@[simp] theorem byteSize_nil : byteSize [] = 0 := rfl

@[simp] theorem byteSize_cons (character : Char) (text : List Char) :
    byteSize (character :: text) = character.utf8Size + byteSize text := rfl

@[simp] theorem byteSize_append (left right : List Char) :
    byteSize (left ++ right) = byteSize left + byteSize right := by
  induction left with
  | nil => simp
  | cons character left ih => simp [ih, Nat.add_assoc]

theorem Consumed.offset (consumed : cursor.Consumed text) :
    cursor.offset = byteSize text := by
  simp [Cursor.offset, consumed.source]

/-- The slice up to a cursor in the same text is what the rest has before that of the other
cursor. -/
theorem sliceUntil_of_rest {later : Cursor} (same : cursor.source = later.source)
    (ahead : cursor.rest = piece ++ later.rest) :
    cursor.sliceUntil later = .ok (String.ofList piece) := by
  have ordered : cursor.offset ≤ later.offset := by
    simp only [Cursor.offset, same, ahead, byteSize_append]
    omega
  have between : cursor.rest.take (cursor.rest.length - later.rest.length) = piece := by
    rw [ahead, List.length_append, Nat.add_sub_cancel, List.take_left]
  rw [sliceUntil, if_neg (not_not_intro same), if_neg (Nat.not_lt.mpr ordered), between]

/-- The slice up to a place further on is what lies between. -/
theorem sliceUntil_advance (ahead : cursor.rest = piece ++ after) :
    cursor.sliceUntil (cursor.advance piece.length) = .ok (String.ofList piece) := by
  apply sliceUntil_of_rest (advance_source cursor piece.length).symm
  rw [advance_rest_of_append ahead, ahead]

end Cursor

end Reckon
