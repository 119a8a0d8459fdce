import Reckon.Scan

/-!
# Block comments

Comments nest. This module states which texts close a comment by the rules of
nesting alone, and proves that the search for the end of a comment finds such a
text wherever there is one.
-/

namespace Reckon.Piece

/-- A text that closes a block comment behind its opening mark. Up to the mark that
closes it there are whole comments, and characters that neither begin a mark that
opens a comment nor one that closes it. -/
inductive ClosesComment : List Char → Prop where
  | mark : ClosesComment ['*', '/']
  | comment {inner rest : List Char} : ClosesComment inner → ClosesComment rest →
      ClosesComment ('/' :: '*' :: (inner ++ rest))
  | character {character : Char} {rest : List Char} :
      ¬['/', '*'] <+: character :: rest → ¬['*', '/'] <+: character :: rest →
      ClosesComment rest → ClosesComment (character :: rest)

/-- A text that closes a block comment and a number of others around it. -/
def ClosesComments : Nat → List Char → Prop
  | 0, body => ClosesComment body
  | depth + 1, body =>
      ∃ inner outer, body = inner ++ outer ∧ ClosesComment inner ∧
        ClosesComments depth outer

theorem ClosesComments.comment {depth : Nat} {inner body : List Char}
    (comment : ClosesComment inner) (closes : ClosesComments depth body) :
    ClosesComments depth ('/' :: '*' :: (inner ++ body)) := by
  cases depth with
  | zero => exact ClosesComment.comment comment closes
  | succ depth =>
      obtain ⟨first, outer, rfl, closesFirst, closesOuter⟩ := closes
      exact ⟨_, outer, by simp, .comment comment closesFirst, closesOuter⟩

theorem ClosesComments.character {depth : Nat} {character : Char} {body rest : List Char}
    (closes : ClosesComments depth body) (reaches : body <+: rest)
    (noOpening : ¬['/', '*'] <+: character :: rest)
    (noClosing : ¬['*', '/'] <+: character :: rest) :
    ClosesComments depth (character :: body) := by
  have shorter : ∀ {start : List Char}, start <+: body →
      character :: start <+: character :: rest :=
    fun start => (List.cons_prefix_cons.mpr ⟨rfl, start.trans reaches⟩)
  cases depth with
  | zero =>
      have all := shorter (List.prefix_refl body)
      exact ClosesComment.character (fun mark => noOpening (mark.trans all))
        (fun mark => noClosing (mark.trans all)) closes
  | succ depth =>
      obtain ⟨inner, outer, rfl, closesInner, closesOuter⟩ := closes
      have start := shorter (List.prefix_append inner outer)
      exact ⟨character :: inner, outer, rfl,
        .character (fun mark => noOpening (mark.trans start))
          (fun mark => noClosing (mark.trans start)) closesInner, closesOuter⟩

theorem pair_prefix_iff {first second character : Char} {rest : List Char} :
    [first, second] <+: character :: rest ↔
      character = first ∧ ∃ tail, rest = second :: tail := by
  constructor
  · rintro ⟨tail, equal⟩
    cases equal
    exact ⟨rfl, tail, rfl⟩
  · rintro ⟨rfl, tail, rfl⟩
    exact ⟨tail, rfl⟩

/-- The search for the end of comments by the marks that a text begins with. -/
theorem search_induction {motive : Nat → List Char → Prop}
    (nil : ∀ depth, motive depth [])
    (last : ∀ rest, motive 0 ('*' :: '/' :: rest))
    (closing : ∀ depth rest, motive depth rest → motive (depth + 1) ('*' :: '/' :: rest))
    (opening : ∀ depth rest, motive (depth + 1) rest → motive depth ('/' :: '*' :: rest))
    (character : ∀ depth character rest, ¬['/', '*'] <+: character :: rest →
      ¬['*', '/'] <+: character :: rest → motive depth rest → motive depth (character :: rest))
    (depth : Nat) (text : List Char) : motive depth text := by
  fun_induction closeComment depth text with
  | case1 depth => exact nil depth
  | case2 rest => exact last rest
  | case3 depth rest ih => exact closing depth rest ih
  | case4 depth rest ih => exact opening depth rest ih
  | case5 depth first rest noMark noClosing noOpening ih =>
      refine character depth first rest ?_ ?_ ih
      · intro mark
        obtain ⟨slash, tail, star⟩ := pair_prefix_iff.mp mark
        exact noOpening tail slash star
      · intro mark
        obtain ⟨star, tail, slash⟩ := pair_prefix_iff.mp mark
        cases depth with
        | zero => exact noMark tail rfl star slash
        | succ depth => exact noClosing depth tail rfl star slash

theorem closeComment_character {depth : Nat} {character : Char} {rest : List Char}
    (noOpening : ¬['/', '*'] <+: character :: rest)
    (noClosing : ¬['*', '/'] <+: character :: rest) :
    closeComment depth (character :: rest) =
      (closeComment depth rest).map (character :: ·) := by
  simp only [pair_prefix_iff, not_and, not_exists] at noOpening noClosing
  apply closeComment.eq_5
  · exact fun tail slash star => noOpening slash tail star
  · exact fun tail _ star slash => noClosing star tail slash
  · exact fun _ tail _ star slash => noClosing star tail slash

theorem closeComment_closes {depth : Nat} {text body : List Char}
    (found : closeComment depth text = some body) :
    ClosesComments depth body ∧ body <+: text := by
  induction depth, text using search_induction generalizing body with
  | nil => cases found
  | last rest =>
      cases found
      exact ⟨.mark, rest, rfl⟩
  | closing depth rest ih =>
      obtain ⟨outer, inner, rfl⟩ := Option.map_eq_some_iff.mp found
      obtain ⟨closes, reaches⟩ := ih inner
      exact ⟨⟨['*', '/'], outer, rfl, .mark, closes⟩, by simpa using reaches⟩
  | opening depth rest ih =>
      rw [closeComment] at found
      obtain ⟨_, inner, rfl⟩ := Option.map_eq_some_iff.mp found
      obtain ⟨⟨first, outer, rfl, closesFirst, closes⟩, reaches⟩ := ih inner
      exact ⟨closes.comment closesFirst, by simpa using reaches⟩
  | character depth first rest noOpening noClosing ih =>
      rw [closeComment_character noOpening noClosing] at found
      obtain ⟨_, inner, rfl⟩ := Option.map_eq_some_iff.mp found
      obtain ⟨closes, reaches⟩ := ih inner
      exact ⟨closes.character reaches noOpening noClosing, by simpa using reaches⟩

theorem ClosesComment.ne_nil {body : List Char} (closes : ClosesComment body) :
    body ≠ [] := by
  cases closes <;> exact List.cons_ne_nil _ _

/-- The search finds the end of a comment whatever follows, and goes on there if more
comments are open. -/
theorem ClosesComment.closeComment {body : List Char} (closes : ClosesComment body)
    (rest : List Char) :
    closeComment 0 (body ++ rest) = some body ∧
      ∀ depth, closeComment (depth + 1) (body ++ rest) =
        (closeComment depth rest).map (body ++ ·) := by
  induction closes generalizing rest with
  | mark => exact ⟨rfl, fun depth => rfl⟩
  | @comment inner outer _ _ innerIH outerIH =>
      obtain ⟨last, others⟩ := outerIH rest
      have first := (innerIH (outer ++ rest)).2
      constructor
      · simp [Piece.closeComment, first, last]
      · intro depth
        simp [Piece.closeComment, first, others, Function.comp_def]
  | @character character body noOpening noClosing closes ih =>
      obtain ⟨last, others⟩ := ih rest
      obtain ⟨next, tail, rfl⟩ := List.exists_cons_of_ne_nil closes.ne_nil
      -- The first two characters decide, and both are of the comment.
      have same : ∀ mark : Char × Char, ¬[mark.1, mark.2] <+: character :: next :: tail →
          ¬[mark.1, mark.2] <+: character :: (next :: tail ++ rest) := by
        simp [List.cons_prefix_cons]
      have step := fun depth => @closeComment_character depth _ _
        (same ('/', '*') noOpening) (same ('*', '/') noClosing)
      constructor
      · rw [List.cons_append, step, last]
        rfl
      · intro depth
        rw [List.cons_append, step, others, Option.map_map]
        rfl

/-- The end of a comment is found exactly where the rules of nesting have one. -/
theorem closeComment_eq_some_iff {text body : List Char} :
    closeComment 0 text = some body ↔ ClosesComment body ∧ body <+: text := by
  constructor
  · exact closeComment_closes
  · rintro ⟨closes, rest, rfl⟩
    exact (closes.closeComment rest).1

theorem closeComment_eq_none_iff {text : List Char} :
    closeComment 0 text = none ↔ ∀ body, ClosesComment body → ¬body <+: text := by
  rw [Option.eq_none_iff_forall_ne_some]
  exact forall_congr' fun body => by rw [ne_eq, closeComment_eq_some_iff, not_and]

end Reckon.Piece
