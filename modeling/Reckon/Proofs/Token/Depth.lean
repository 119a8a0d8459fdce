import Reckon.Proofs.Checked
import Reckon.Proofs.Token.Division

/-!
# How deep comments nest

In the search for the end of a block comment the number of open comments has no bound. A
program counts them in 32 bits. This module says how high a text makes the count rise. No text
of less than four billion characters makes it rise too high.
-/

namespace Reckon

namespace Piece

/-- How many comments are open at once at most, not counting the outermost, while the end of
all of them is searched for; `depth` of them are open. -/
def deepest : (depth : Nat) → List Char → Nat
  | depth, [] => depth
  | 0, '*' :: '/' :: _ => 0
  | depth + 1, '*' :: '/' :: rest => max (depth + 1) (deepest depth rest)
  | depth, '/' :: '*' :: rest => deepest (depth + 1) rest
  | depth, _ :: rest => deepest depth rest

theorem le_deepest (depth : Nat) (text : List Char) : depth ≤ deepest depth text := by
  fun_induction deepest depth text <;> omega

theorem deepest_le (depth : Nat) (text : List Char) :
    2 * deepest depth text ≤ 2 * depth + text.length := by
  fun_induction deepest depth text <;> grind

theorem deepest_character {depth : Nat} {character : Char} {rest : List Char}
    (noOpening : ¬['/', '*'] <+: character :: rest)
    (noClosing : ¬['*', '/'] <+: character :: rest) :
    deepest depth (character :: rest) = deepest depth rest := by
  simp only [pair_prefix_iff, not_and, not_exists] at noOpening noClosing
  apply deepest.eq_5
  · exact fun tail slash star => noOpening slash tail star
  · exact fun tail _ star slash => noClosing star tail slash
  · exact fun _ tail _ star slash => noClosing star tail slash

theorem deepest_of_closeComment {depth : Nat} {text body : List Char}
    (found : closeComment depth text = some body) : deepest depth body = deepest depth text := by
  induction depth, text using search_induction generalizing body with
  | nil => cases found
  | last rest =>
      cases found
      rfl
  | closing depth rest ih =>
      obtain ⟨inner, within, rfl⟩ := Option.map_eq_some_iff.mp found
      rw [deepest, deepest, ih within]
  | opening depth rest ih =>
      rw [closeComment] at found
      obtain ⟨inner, within, rfl⟩ := Option.map_eq_some_iff.mp found
      rw [deepest, deepest, ih within]
  | character depth first rest noOpening noClosing ih =>
      rw [closeComment_character noOpening noClosing] at found
      obtain ⟨inner, within, rfl⟩ := Option.map_eq_some_iff.mp found
      have shorter : first :: inner <+: first :: rest :=
        List.cons_prefix_cons.mpr ⟨rfl, (closeComment_closes within).2⟩
      rw [deepest_character noOpening noClosing, ← ih within]
      exact deepest_character (fun mark => noOpening (mark.trans shorter))
        (fun mark => noClosing (mark.trans shorter))

/-- How many comments are open at once at most in a piece. -/
def nesting : Piece → Nat
  | .blockComment text | .openComment text => deepest 0 (text.drop 2) + 1
  | _ => 0

theorem nesting_read_comment (rest : List Char) :
    (read '/' ('*' :: rest)).nesting = deepest 0 rest + 1 := by
  cases found : closeComment 0 rest with
  | none => simp only [read, afterSlash, found, nesting, List.drop_succ_cons, List.drop_zero]
  | some body =>
      simp only [read, afterSlash, found, nesting, List.drop_succ_cons, List.drop_zero,
        deepest_of_closeComment found]

/-- Nothing but block comments nests. -/
theorem comment_of_nesting_pos {first : Char} {rest : List Char}
    (deep : 0 < (read first rest).nesting) : first = '/' ∧ ∃ tail, rest = '*' :: tail := by
  obtain ⟨after, split, fits⟩ := read_begins first rest
  generalize read first rest = piece at deep split fits
  cases fits with
  | blockComment | openComment =>
      cases split
      exact ⟨rfl, _, rfl⟩
  | _ => cases deep

theorem Fits.nesting_le {piece : Piece} {after : List Char} (fits : piece.Fits after) :
    2 * piece.nesting ≤ piece.text.length := by
  cases fits with
  | @blockComment body _ _ | @openComment body _ =>
      have deep := deepest_le 0 body
      simp only [nesting, text, List.drop_succ_cons, List.drop_zero, List.length_cons]
      omega
  | _ => exact Nat.zero_le _

/-! ## Marks one behind the other -/

/-- A number of marks that open comments. -/
@[irreducible]
def openings (count : Nat) : List Char := (List.replicate count ['/', '*']).flatten

/-- A number of marks that close comments. -/
@[irreducible]
def closings (count : Nat) : List Char := (List.replicate count ['*', '/']).flatten

@[simp] theorem openings_zero : openings 0 = [] := by simp [openings]

theorem openings_succ (count : Nat) : openings (count + 1) = '/' :: '*' :: openings count := by
  simp [openings, List.replicate_succ]

theorem closings_succ (count : Nat) : closings (count + 1) = closings count ++ ['*', '/'] := by
  simp [closings, List.replicate_succ']

@[simp] theorem length_openings (count : Nat) : (openings count).length = 2 * count := by
  simp [openings, Nat.mul_comm]

@[simp] theorem deepest_openings (count depth : Nat) (rest : List Char) :
    deepest depth (openings count ++ rest) = deepest (depth + count) rest := by
  induction count generalizing depth with
  | zero => simp
  | succ count ih => simp [openings_succ, deepest, ih, Nat.succ_add_eq_add_succ]

theorem le_deepest_openings (count : Nat) (rest : List Char) :
    count ≤ deepest 0 (openings count ++ rest) := by
  simpa using le_deepest count rest

theorem closeComment_openings (count depth : Nat) (rest : List Char) :
    closeComment depth (openings count ++ rest) =
      (closeComment (depth + count) rest).map (openings count ++ ·) := by
  induction count generalizing depth with
  | zero => simp
  | succ count ih =>
      simp [openings_succ, closeComment, ih, Nat.succ_add_eq_add_succ, Function.comp_def]

theorem closeComment_openings_eq_none {count : Nat} (positive : 0 < count) :
    closeComment 0 (openings count ++ ['*', '/']) = none := by
  obtain ⟨others, rfl⟩ := Nat.exists_eq_succ_of_ne_zero (Nat.ne_of_gt positive)
  rw [closeComment_openings, Nat.zero_add]
  rfl

theorem closesComment_openings (count : Nat) :
    ClosesComment (openings count ++ closings (count + 1)) := by
  induction count with
  | zero => simpa [openings, closings] using ClosesComment.mark
  | succ count ih =>
      rw [openings_succ, closings_succ, List.cons_append, List.cons_append, ← List.append_assoc]
      exact .comment ih .mark

end Piece

/-! ## Texts that are not too deep -/

/-- No comment that a cursor has before it opens more than can be counted. -/
def Cursor.Shallow (overflow : Overflow) (cursor : Cursor) : Prop :=
  ∀ located ∈ cursor.pieces, located.2.nesting ≤ overflow.limit

namespace Cursor

variable {overflow : Overflow} {cursor : Cursor} {first : Char} {rest : List Char}

theorem shallow_iff :
    cursor.Shallow overflow ↔
      ∀ piece ∈ cursor.pieces.map Prod.snd, piece.nesting ≤ overflow.limit := by
  rw [List.forall_mem_map]
  rfl

theorem shallow_of_nil (ends : cursor.rest = []) : cursor.Shallow overflow := by
  rw [Shallow, pieces_of_nil ends]
  exact List.forall_mem_nil _

theorem shallow_of_cons (ahead : cursor.rest = first :: rest) :
    cursor.Shallow overflow ↔
      (Piece.read first rest).nesting ≤ overflow.limit ∧
        (cursor.advance (Piece.read first rest).text.length).Shallow overflow := by
  rw [Shallow, pieces_of_cons ahead, List.forall_mem_cons]
  rfl

theorem not_shallow (ahead : cursor.rest = '/' :: '*' :: rest)
    (deep : overflow.limit ≤ Piece.deepest 0 rest) : ¬cursor.Shallow overflow := by
  intro shallow
  have fits := ((shallow_of_cons ahead).mp shallow).1
  rw [Piece.nesting_read_comment] at fits
  omega

theorem not_shallow_of_blank (ahead : cursor.rest = ' ' :: '/' :: '*' :: rest)
    (deep : overflow.limit ≤ Piece.deepest 0 rest) : ¬cursor.Shallow overflow := by
  intro shallow
  have behind : (cursor.advance 1).rest = '/' :: '*' :: rest := by
    rw [advance_rest, ahead]
    rfl
  exact not_shallow behind deep ((shallow_of_cons ahead).mp shallow).2

/-- No text of less than four billion characters is too deep. -/
theorem shallow_of_length (overflow : Overflow) (cursor : Cursor)
    (short : cursor.rest.length < 2 ^ 32) : cursor.Shallow overflow := by
  cases ahead : cursor.rest with
  | nil => exact shallow_of_nil ahead
  | cons first rest =>
      obtain ⟨after, split, fits⟩ := Piece.read_begins first rest
      have positive := List.length_pos_iff.mpr fits.text_ne_nil
      have next : (cursor.advance (Piece.read first rest).text.length).rest = after :=
        advance_rest_of_append (ahead.trans split)
      have few := fits.nesting_le
      rw [ahead, split, List.length_append] at short
      refine (shallow_of_cons ahead).mpr ⟨?_, shallow_of_length overflow _ (by rw [next]; omega)⟩
      cases overflow <;> simp only [Overflow.limit] <;> omega
termination_by cursor.rest.length
decreasing_by
  rw [next, ahead, split, List.length_append]
  omega

end Cursor

end Reckon
