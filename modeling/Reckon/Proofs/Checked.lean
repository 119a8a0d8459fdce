import Mathlib.Algebra.Group.Nat.Defs
import Reckon.Expr
import Reckon.Proofs.Cursor.Consumed

/-!
# Checked computations

Slices of texts and accesses to lists rely on places that no type keeps within their
bounds, evaluation relies on operators that no type keeps at their places, and a count relies
on the range of its type. A checked computation ends with a panic where it relies on something
that does not hold. Its loops and calls are not known to end beforehand, so it is also given a
number of steps to end within.
-/

namespace Reckon

/-- What a computation relied on in vain. -/
inductive Panic where
  /-- Two cursors delimit no slice. -/
  | cursors (error : Cursor.SliceError)
  /-- No whole characters lie between two bytes of a text. -/
  | bytes (first last : Nat)
  /-- A list has nothing at an index. -/
  | index (position : Nat)
  /-- A token is no operator at its place. -/
  | operator (misplaced : MisplacedOperator)
  /-- A count leaves the range of its type. -/
  | overflow
  deriving DecidableEq, Repr

/-- A computation that ends with a result or a panic, or not within its steps. It is `pure`
if and only if it ends with a result. -/
abbrev Checked (α : Type) := ExceptT Panic Option α

def Checked.unended {α : Type} : Checked α := ExceptT.mk none

@[simp] theorem Checked.throw_bind {α β : Type} (panic : Panic) (next : α → Checked β) :
    (throw panic >>= next) = throw panic := rfl

theorem Checked.pure_inj {α : Type} {left right : α} :
    (pure left : Checked α) = pure right ↔ left = right :=
  ⟨fun same => Except.ok.inj (Option.some.inj same), congrArg pure⟩

/-! ## Counts of 32 bits -/

/-- What becomes of a count that leaves the range of its type. Programs are built either way. -/
inductive Overflow where
  /-- It is a panic. -/
  | panics
  /-- The count goes on at the other end of the range. -/
  | wraps
  deriving DecidableEq, Repr

namespace Overflow

variable {overflow : Overflow} {count : Nat}

def increment (overflow : Overflow) (count : Int32) : Checked Int32 :=
  if overflow = .panics ∧ count = Int32.maxValue then throw .overflow else pure (count + 1)

def decrement (overflow : Overflow) (count : Int32) : Checked Int32 :=
  if overflow = .panics ∧ count = Int32.minValue then throw .overflow else pure (count - 1)

/-- How far one may count up and, down again, find zero at zero only. -/
def limit : Overflow → Nat
  | panics => 2 ^ 31 - 1
  | wraps => 2 ^ 32

theorem limit_pos (overflow : Overflow) : 0 < overflow.limit := by
  cases overflow <;> decide

theorem limit_le (overflow : Overflow) : overflow.limit ≤ 2 ^ 32 := by
  cases overflow <;> decide

theorem ofNat_eq_zero_iff (fits : count < 2 ^ 32) : Int32.ofNat count = 0 ↔ count = 0 := by
  rw [← Int32.toBitVec_inj, Int32.toBitVec_ofNat', ← BitVec.toNat_inj, BitVec.toNat_ofNat,
    Nat.mod_eq_of_lt fits]
  rfl

theorem ofNat_succ_ne_zero (fits : count + 1 < 2 ^ 32) : Int32.ofNat (count + 1) ≠ 0 :=
  mt (ofNat_eq_zero_iff fits).mp (Nat.succ_ne_zero count)

theorem toInt_ofNat (fits : count ≤ panics.limit) : (Int32.ofNat count).toInt = count :=
  Int32.toInt_ofNat_of_lt (Nat.lt_of_le_of_lt fits (by decide))

theorem increment_ofNat (fits : count < overflow.limit) :
    overflow.increment (.ofNat count) = pure (.ofNat (count + 1)) := by
  rw [increment, if_neg, Int32.ofNat_add]
  · rfl
  · rintro ⟨rfl, greatest⟩
    have value := congrArg Int32.toInt greatest
    rw [toInt_ofNat (Nat.le_of_lt fits), Int32.toInt_maxValue] at value
    simp only [limit] at fits
    omega

theorem decrement_ofNat (fits : count < overflow.limit) :
    overflow.decrement (.ofNat (count + 1)) = pure (.ofNat count) := by
  rw [decrement, if_neg, Int32.ofNat_add]
  · exact congrArg pure (Int32.add_sub_cancel _ _)
  · rintro ⟨rfl, least⟩
    have value := congrArg Int32.toInt least
    rw [toInt_ofNat fits, Int32.toInt_minValue] at value
    omega

theorem increment_limit : panics.increment (.ofNat panics.limit) = throw .overflow := by
  rw [increment, if_pos ⟨rfl, by decide⟩]

@[simp] theorem increment_wraps (count : Int32) : wraps.increment count = pure (count + 1) := rfl

@[simp] theorem decrement_wraps (count : Int32) : wraps.decrement count = pure (count - 1) := rfl

end Overflow

namespace Text

/-- The characters within a number of bytes at the beginning of a text, and those behind
them; nothing if the bytes end within a character or not before the text. -/
def splitBytes : (size : Nat) → List Char → Option (List Char × List Char)
  | 0, text => some ([], text)
  | _ + 1, [] => none
  | size + 1, character :: text =>
      if character.utf8Size ≤ size + 1 then
        (splitBytes (size + 1 - character.utf8Size) text).map fun (inside, behind) =>
          (character :: inside, behind)
      else none

/-- The characters of a text from one byte up to another. -/
def slice (text : List Char) (first last : Nat) : Checked (List Char) :=
  let between := do
    let (_, behind) ← splitBytes first text
    let (inside, _) ← splitBytes (last - first) behind
    if first ≤ last then some inside else none
  match between with
  | some inside => pure inside
  | none => throw (.bytes first last)

theorem splitBytes_append (inside behind : List Char) :
    splitBytes (Cursor.byteSize inside) (inside ++ behind) = some (inside, behind) := by
  induction inside with
  | nil => simp [splitBytes]
  | cons character inside ih =>
      have positive := character.utf8Size_pos
      have size := Cursor.byteSize_cons character inside
      obtain ⟨less, size'⟩ : ∃ less, Cursor.byteSize (character :: inside) = less + 1 :=
        ⟨_, (Nat.sub_one_add_one (by omega)).symm⟩
      have left : less + 1 - character.utf8Size = Cursor.byteSize inside := by omega
      rw [size', List.cons_append, splitBytes, if_pos (by omega), left, ih]
      rfl

/-- Between the sizes of two prefixes lies what the longer one has more. -/
theorem slice_append (before inside behind : List Char) :
    slice (before ++ inside ++ behind) (Cursor.byteSize before)
      (Cursor.byteSize (before ++ inside)) = pure inside := by
  simp [slice, splitBytes_append]

example : slice ['\u00e9', 'a'] 1 3 = throw (.bytes 1 3) := rfl

end Text

namespace Cursor

/-- The text from one cursor up to a later one in the same text. The cursors have to
delimit a slice, and the slice whole characters. -/
def checkedSlice (cursor later : Cursor) : Checked (List Char) :=
  match cursor.sliceUntil later with
  | .ok _ => Text.slice cursor.source.toList cursor.offset later.offset
  | .error error => throw (.cursors error)

/-- The slice up to a place further on is what lies between. -/
theorem Consumed.checkedSlice {cursor : Cursor} {before piece after : List Char}
    (consumed : cursor.Consumed before) (ahead : cursor.rest = piece ++ after) :
    cursor.checkedSlice (cursor.advance piece.length) = pure piece := by
  have source : cursor.source.toList = before ++ piece ++ after := by
    rw [consumed.source, ahead, List.append_assoc]
  rw [Cursor.checkedSlice, sliceUntil_advance ahead, consumed.offset,
    (consumed.advance ahead).offset, source]
  exact Text.slice_append before piece after

end Cursor

end Reckon
