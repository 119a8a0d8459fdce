import Mathlib.Order.Bounds.Defs
import Reckon.Proofs.Expr.Recovery

/-!
# Where skipping stops

Skipping drops a token and then stops at the first position at which a statement may begin.
This module says by the tokens around a position whether one may begin there, and follows the
steps that skipping makes to that position, from anywhere among any tokens, also behind a mark
of an end.
-/

namespace Reckon

variable {stream later : Stream} {consumed rest tokens unread : List Token}
variable {token stop : Token}

/-- The kinds of the words that statements begin with. -/
def Kind.openings : List Kind :=
  [.keyword .classWord, .keyword .funWord, .keyword .varWord, .keyword .forWord,
    .keyword .ifWord, .keyword .whileWord, .keyword .printWord, .keyword .returnWord]

theorem Kind.startsStatement_iff {kind : Kind} : kind.startsStatement ↔ kind ∈ openings := by
  cases kind with
  | keyword word => cases word <;> decide
  | _ => decide

/-- Whether a statement may begin at a position: at a mark of an end, at a word that
statements begin with, or behind a semicolon. -/
def Boundary (tokens : List Token) (position : Nat) : Prop :=
  ∃ token ∈ tokens[position]?, token.kind = .eof ∨ token.kind ∈ Kind.openings ∨
    ∃ before ∈ tokens[position - 1]?, before.kind = .semicolon

instance (tokens : List Token) (position : Nat) : Decidable (Boundary tokens position) :=
  inferInstanceAs (Decidable (∃ token ∈ tokens[position]?, _ ∨ _ ∨ _))

/-! ## Places in any tokens -/

theorem Automaton.closed_getLast? (tokens : List Token) :
    (closed tokens).getLast?.map (·.kind) = some .eof := by
  rw [closed]
  split
  next ends => exact ends
  next => simp

/-- Wherever a stream stands among tokens with a mark last, there is a first mark from there
on. -/
theorem Stream.exists_at (stream : Stream) (within : stream.current < stream.tokens.length)
    (ends : stream.tokens.getLast?.map (·.kind) = some .eof) :
    ∃ consumed rest stop unread, stream.At consumed rest stop unread := by
  obtain ⟨last, isLast, marks⟩ := Option.map_eq_some_iff.mp ends
  have member : last ∈ stream.tokens.drop stream.current := by
    apply List.mem_of_getLast?
    rw [List.getLast?_drop, if_neg (Nat.not_le.mpr within), isLast]
  cases found : (stream.tokens.drop stream.current).find? (·.kind == .eof) with
  | none =>
      have unmarked := List.find?_eq_none.mp found last member
      simp [marks] at unmarked
  | some stop =>
      obtain ⟨stops, rest, unread, split, others⟩ := List.find?_eq_some_iff_append.mp found
      refine ⟨stream.tokens.take stream.current, rest, stop, unread, ?_, ?_, ?_, ?_⟩
      · rw [List.append_assoc, ← split, List.take_append_drop]
      · rw [List.length_take, Nat.min_eq_left (Nat.le_of_lt within)]
      · simpa using others
      · simpa using stops

/-- Whether a statement may begin at the next token depends on it and the one before it. -/
theorem Stream.At.boundary_iff (place : stream.At (consumed ++ [token]) rest stop unread) :
    Boundary stream.tokens stream.current ↔
      rest = [] ∨ token.kind = .semicolon ∨ ∃ next ∈ rest.head?, next.kind.startsStatement := by
  have before : stream.tokens[stream.current - 1]? = some token := by
    rw [place.tokens, place.current]
    simp
  rw [Boundary, place.getElem?, before]
  cases rest with
  | nil => simp [ahead, place.ends]
  | cons next rest =>
      have more := place.more next List.mem_cons_self
      simp [ahead, more, Kind.startsStatement_iff, or_comm]

namespace Descent

/-! ## Skipping -/

/-- Skipping stops at the first position from the next token on at which a statement may
begin. -/
theorem isLeast_of_skip {steps : Nat} (place : stream.At (consumed ++ [token]) rest stop unread)
    (ran : run (skip steps) stream = pure (.ok (), later)) :
    IsLeast {position | stream.current ≤ position ∧ Boundary stream.tokens position}
      later.current := by
  induction steps generalizing stream consumed token rest with
  | zero => cases ran
  | succ steps ih =>
      have boundary := place.boundary_iff
      cases rest with
      | nil =>
          have stays : run (skip (steps + 1)) stream = pure (.ok (), stream) := by
            simp [skip, run_isAtEnd place]
          cases stays.symm.trans ran
          exact ⟨⟨Nat.le_refl _, boundary.mpr (.inl rfl)⟩, fun position among => among.1⟩
      | cons next rest =>
          rw [run_skip_cons place] at ran
          split at ran
          next stops =>
            cases ran
            refine ⟨⟨Nat.le_refl _, boundary.mpr (.inr ?_)⟩, fun position among => among.1⟩
            simpa using stops
          next goes =>
            obtain ⟨⟨further, isBoundary⟩, least⟩ := ih place.moved ran
            refine ⟨⟨Nat.le_of_succ_le further, isBoundary⟩, fun position among => ?_⟩
            have elsewhere : stream.current ≠ position := by
              rintro rfl
              have stops := (boundary.mp among.2).resolve_left (List.cons_ne_nil _ _)
              exact goes (by simpa using stops)
            exact least ⟨Nat.lt_of_le_of_ne among.1 elsewhere, among.2⟩

/-- Where there is a token to be dropped, skipping stops behind it. -/
theorem isLeast_of_synchronize {steps : Nat}
    (place : stream.At consumed (token :: rest) stop unread)
    (ran : run (synchronize steps) stream = pure (.ok (), later)) :
    IsLeast {position | stream.current < position ∧ Boundary stream.tokens position}
      later.current := by
  exact isLeast_of_skip place.moved (by simpa [synchronize, run_advance place] using ran)

/-- Skipping stays at a mark of an end. From anywhere else it drops a token and stops at the
first position behind it at which a statement may begin, and it always ends. -/
theorem synchronize_stops_first (log : Log) (tokens : List Token)
    (position : Fin (Automaton.closed tokens).length) :
    let stream : Stream := ⟨Automaton.closed tokens, position, log⟩
    ∃ target, Call.synchronize.perform stream = pure (none, { stream with current := target }) ∧
      stream.parser.synchronize = { stream with current := target }.parser ∧
      if (Automaton.closed tokens)[position].kind = .eof then target = position
      else
        IsLeast {later : Nat | position < later ∧ Boundary (Automaton.closed tokens) later}
          target := by
  intro stream
  obtain ⟨consumed, rest, stop, unread, place⟩ :=
    stream.exists_at position.isLt (Automaton.closed_getLast? tokens)
  obtain ⟨skipped, behind, later, ran, split, left, placeBehind, same, -⟩ :=
    run_synchronize place place.length_lt
  have moved : later = { stream with current := later.current } := by
    have kept : later.tokens = stream.tokens := by
      rw [place.tokens, placeBehind.tokens, split, List.append_assoc consumed]
    rw [← kept, ← same]
  refine ⟨later.current, ?_, ?_, ?_⟩
  · rw [Call.perform, ran, pure_bind, ← moved]
  · rw [← moved, place.parser, placeBehind.parser, left]
  · have next : (Automaton.closed tokens)[position] = ahead stop rest :=
      Option.some_inj.mp ((List.getElem?_eq_getElem position.isLt).symm.trans place.getElem?)
    rw [next]
    cases rest with
    | nil =>
        have unmoved : skipped = [] := (List.append_eq_nil_iff.mp split.symm).1
        rw [if_pos (by simpa [ahead] using place.ends), placeBehind.current, unmoved,
          List.append_nil, ← place.current]
    | cons token rest =>
        rw [if_neg (by simpa [ahead] using place.more token List.mem_cons_self)]
        exact isLeast_of_synchronize place ran

/-- A semicolon that is dropped ends a statement as any other does. -/
example :
    let semicolon : Token := ⟨.semicolon, ";", none, 1⟩
    let sum : Token := ⟨.plus, "+", none, 1⟩
    (Parser.ofTokens [semicolon, sum, semicolon]).synchronize.remaining = [sum, semicolon] := by
  decide

end Descent

end Reckon
