import Reckon.Proofs.Expr.Descent

/-!
# Going on behind errors

A parser that has reported an error can be told to skip tokens up to where a statement may
begin, and to parse again. This module follows the position among the tokens through any
such calls, and proves that every round of parsing and skipping comes closer to the end.
-/

namespace Reckon

variable {stream later : Stream} {consumed rest behind tokens unread : List Token}
variable {token stop : Token}

namespace Descent

/-! ## Skipping -/

/-- Skip tokens up to where a statement may begin. Every token is a step. -/
def skip : (steps : Nat) → Descent Unit
  | 0 => unended
  | steps + 1 => do
      if ← isAtEnd then return
      if (← previous).kind == .semicolon then return
      if (← peek).kind.startsStatement then return
      let _ ← advance
      skip steps

/-- Drop a token, and skip more of them. -/
def synchronize (steps : Nat) : Descent Unit := do
  let _ ← advance
  skip steps

/-- At the end nothing is skipped. There is a token before the next one all the same, be it
the next one itself. -/
theorem run_advance_atEnd (place : stream.At consumed [] stop unread) :
    ∃ token, run advance stream = pure (.ok token, stream) := by
  have unmoved : run advance stream = run previous stream := by
    simp [advance, run_isAtEnd place]
  rw [unmoved]
  rcases List.eq_nil_or_concat consumed with rfl | ⟨before, token, rfl⟩
  · have found : stream.tokens[stream.current - 1]? = some stop := by
      rw [place.tokens, place.current]
      rfl
    exact ⟨stop, by simp [previous, run_token found]⟩
  · rw [List.concat_eq_append] at place
    exact ⟨token, run_previous place⟩

/-- Skipping stops behind a semicolon and before a statement; otherwise it drops a token. -/
theorem run_skip_cons {steps : Nat} {next : Token}
    (place : stream.At (consumed ++ [token]) (next :: rest) stop unread) :
    run (skip (steps + 1)) stream =
      if token.kind = .semicolon || next.kind.startsStatement then pure (.ok (), stream)
      else run (skip steps) stream.moved := by
  by_cases ended : token.kind = .semicolon
  · simp [skip, run_isAtEnd place, run_previous place, ended]
  · cases starts : next.kind.startsStatement with
    | true =>
        simp [skip, run_isAtEnd place, run_previous place, run_peek place, ahead, ended, starts]
    | false =>
        simp [skip, run_isAtEnd place, run_previous place, run_peek place, run_advance place,
          ahead, ended, starts]

theorem run_skip {steps : Nat} (place : stream.At (consumed ++ [token]) rest stop unread)
    (enough : rest.length < steps) :
    ∃ tokens later, run (skip steps) stream = pure (.ok (), later) ∧
      rest = tokens ++ Parser.nextStatement token rest ∧
      later.At (consumed ++ [token] ++ tokens) (Parser.nextStatement token rest) stop unread ∧
      later.log = stream.log := by
  induction steps generalizing stream consumed token rest with
  | zero => exact absurd enough (Nat.not_lt_zero _)
  | succ steps ih =>
      cases rest with
      | nil =>
          exact ⟨[], stream, by simp [skip, run_isAtEnd place], rfl,
            by simpa [Parser.nextStatement] using place, rfl⟩
      | cons next rest =>
          rw [run_skip_cons place, Parser.nextStatement]
          split
          next => exact ⟨[], stream, rfl, rfl, by simpa using place, rfl⟩
          next =>
            obtain ⟨tokens, later, ran, split, placeBehind, same⟩ :=
              ih place.moved (Nat.lt_of_succ_lt_succ enough)
            refine ⟨next :: tokens, later, ran, congrArg (next :: ·) split, ?_, same⟩
            simpa using placeBehind

/-- Nothing is dropped at the end. Otherwise a token is dropped, and all others up to the
next statement. -/
theorem run_synchronize {steps : Nat} (place : stream.At consumed rest stop unread)
    (enough : rest.length < steps) :
    ∃ tokens behind later, run (synchronize steps) stream = pure (.ok (), later) ∧
      rest = tokens ++ behind ∧ (Parser.mk rest stop).synchronize = ⟨behind, stop⟩ ∧
      later.At (consumed ++ tokens) behind stop unread ∧ later.log = stream.log ∧
      (rest ≠ [] → tokens ≠ []) := by
  cases rest with
  | nil =>
      obtain ⟨_, stays⟩ := run_advance_atEnd place
      obtain ⟨steps, rfl⟩ := Nat.exists_eq_succ_of_ne_zero (Nat.ne_of_gt enough)
      refine ⟨[], [], stream, ?_, rfl, rfl, by simpa using place, rfl, absurd rfl⟩
      simp [synchronize, stays, skip, run_isAtEnd place]
  | cons token rest =>
      obtain ⟨tokens, later, ran, split, placeBehind, same⟩ :=
        run_skip place.moved (Nat.lt_of_succ_lt enough)
      refine ⟨token :: tokens, _, later, ?_, congrArg (token :: ·) split, rfl, ?_, same,
        fun _ => List.cons_ne_nil _ _⟩
      · simp [synchronize, run_advance place, ran]
      · simpa using placeBehind

end Descent

/-! ## Calls -/

namespace Stream

/-- The parser for the tokens from the next one on. -/
def parser (stream : Stream) : Parser :=
  Parser.ofTokens (stream.tokens.drop stream.current)

/-- The index of the first mark of an end. -/
def limit (stream : Stream) : Nat :=
  stream.tokens.findIdx (·.kind == .eof)

theorem At.parser (place : stream.At consumed rest stop unread) : stream.parser = ⟨rest, stop⟩ := by
  have ahead : stream.tokens.drop stream.current = rest ++ stop :: unread := by
    rw [place.tokens, place.current, List.append_assoc, List.drop_left]
  rw [Stream.parser, ahead, Parser.ofTokens_append place.more place.ends]

theorem At.getElem? (place : stream.At consumed rest stop unread) :
    stream.tokens[stream.current]? = some (ahead stop rest) := by
  rw [place.tokens, place.current]
  cases rest <;> simp [ahead]

theorem At.length_lt (place : stream.At consumed rest stop unread) :
    rest.length < stream.tokens.length := by
  rw [place.tokens]
  simp
  omega

/-- A stream that has some words before the first mark of the end and stands somewhere among
them, or at the mark. -/
def Among (stream : Stream) (words : List Token) (stop : Token) (unread : List Token) : Prop :=
  ∃ consumed rest, words = consumed ++ rest ∧ (∀ token ∈ words, token.kind ≠ .eof) ∧
    stream.At consumed rest stop unread

variable {words : List Token}

theorem Among.tokens_eq (among : stream.Among words stop unread) :
    stream.tokens = words ++ stop :: unread := by
  obtain ⟨consumed, rest, rfl, -, place⟩ := among
  exact place.tokens

theorem Among.limit (among : stream.Among words stop unread) : stream.limit = words.length := by
  have tokens := among.tokens_eq
  obtain ⟨_, _, _, more, place⟩ := among
  have others : words.findIdx (·.kind == .eof) = words.length :=
    List.findIdx_eq_length.mpr (by simpa using more)
  rw [Stream.limit, tokens, List.findIdx_append, others, if_neg (Nat.lt_irrefl _)]
  simp [List.findIdx_cons, place.ends]

theorem Among.current_le (among : stream.Among words stop unread) :
    stream.current ≤ stream.limit := by
  rw [among.limit]
  obtain ⟨consumed, rest, rfl, -, place⟩ := among
  rw [place.current, List.length_append]
  exact Nat.le_add_right _ _

end Stream

namespace Descent

inductive Call where
  | parse
  | synchronize
  deriving DecidableEq

/-- What a parser answers to a call, if it answers anything, and what it has before it
then. -/
def Call.answer (parser : Parser) : Call → Option (Except SyntaxError Expr) × Parser
  | .parse => (some parser.parse.1, parser.parse.2)
  | .synchronize => (none, parser.synchronize)

def Call.perform (stream : Stream) :
    Call → Checked (Option (Except SyntaxError Expr) × Stream)
  | .parse => do
      let (result, later) ← run (whole (depth .expression stream.tokens.length)) stream
      return (some result, later)
  | .synchronize => do
      match ← run (Descent.synchronize stream.tokens.length) stream with
      | (.ok (), later) => return (none, later)
      | (.error error, later) => return (some (.error error), later)

/-- A call that was carried out: what it answered, and the stream before and after it. -/
structure Entry where
  call : Call
  before : Stream
  reply : Option (Except SyntaxError Expr)
  after : Stream

def history (stream : Stream) : List Call → Checked (List Entry × Stream)
  | [] => pure ([], stream)
  | call :: calls => do
      let (reply, later) ← call.perform stream
      let (entries, last) ← history later calls
      return (⟨call, stream, reply, later⟩ :: entries, last)

/-- Entries of which each begins where the one before it ended. -/
inductive Chain : Stream → List Entry → Stream → Prop where
  | nil {stream : Stream} : Chain stream [] stream
  | cons {entry : Entry} {entries : List Entry} {last : Stream} :
      Chain entry.after entries last → Chain entry.before (entry :: entries) last

/-- How a call moves a stream and what it reports. A tree is read up to the first mark of an
end, and an error is reported at the token that the stream is left at. -/
inductive Moves : Call → Stream → Option (Except SyntaxError Expr) → Stream → Prop where
  | tree {stream later : Stream} {expr : Expr} :
      later.current = stream.limit → later.log = stream.log →
      Moves .parse stream (some (.ok expr)) later
  | refusal {stream later : Stream} {error : SyntaxError} :
      later.tokens[later.current]? = some error.token →
      later.log = stream.log.report error.diagnostic →
      Moves .parse stream (some (.error error)) later
  | skip {stream later : Stream} :
      (stream.current < stream.limit → stream.current < later.current) →
      later.log = stream.log → Moves .synchronize stream none later

/-- What holds of every call: the tokens stay as they are, the position goes forward and not
behind the first mark of an end, and the call comes to what it comes to for a parser with the
tokens from there on. -/
structure Entry.Sound (entry : Entry) : Prop where
  tokens : entry.after.tokens = entry.before.tokens
  forward : entry.before.current ≤ entry.after.current
  within : entry.after.current ≤ entry.before.limit
  moves : Moves entry.call entry.before entry.reply entry.after
  agrees : entry.call.answer entry.before.parser = (entry.reply, entry.after.parser)

variable {words : List Token} {calls : List Call} {entries : List Entry} {last : Stream}

/-- What is to be known of a call that goes on from a place to a later one. -/
theorem exists_entry_of_moves (place : stream.At consumed rest stop unread)
    (more : ∀ token ∈ consumed ++ rest, token.kind ≠ .eof) (split : rest = tokens ++ behind)
    (placeBehind : later.At (consumed ++ tokens) behind stop unread) {call : Call}
    {reply : Option (Except SyntaxError Expr)}
    (performed : call.perform stream = pure (reply, later)) (moves : Moves call stream reply later)
    (answered : call.answer ⟨rest, stop⟩ = (reply, ⟨behind, stop⟩)) :
    ∃ entry : Entry, entry.call = call ∧ entry.before = stream ∧
      call.perform stream = pure (entry.reply, entry.after) ∧ entry.Sound ∧
      entry.after.Among (consumed ++ rest) stop unread := by
  have among : stream.Among (consumed ++ rest) stop unread := ⟨_, _, rfl, more, place⟩
  have amongLater : later.Among (consumed ++ rest) stop unread :=
    ⟨consumed ++ tokens, behind, by simp [split], more, placeBehind⟩
  have forward : stream.current ≤ later.current := by
    rw [place.current, placeBehind.current, List.length_append]
    exact Nat.le_add_right _ _
  have within : later.current ≤ stream.limit := by
    rw [among.limit, ← amongLater.limit]
    exact amongLater.current_le
  have agrees : call.answer stream.parser = (reply, later.parser) := by
    rw [place.parser, placeBehind.parser, answered]
  exact ⟨⟨call, stream, reply, later⟩, rfl, rfl, performed,
    ⟨amongLater.tokens_eq.trans among.tokens_eq.symm, forward, within, moves, agrees⟩, amongLater⟩

theorem exists_entry (among : stream.Among words stop unread) (call : Call) :
    ∃ entry : Entry, entry.call = call ∧ entry.before = stream ∧
      call.perform stream = pure (entry.reply, entry.after) ∧ entry.Sound ∧
      entry.after.Among words stop unread := by
  have limit := among.limit
  obtain ⟨consumed, rest, rfl, more, place⟩ := among
  have fits := place.length_lt
  cases call with
  | parse =>
      have enough : depth .expression rest.length ≤ depth .expression stream.tokens.length := by
        unfold depth
        omega
      obtain ⟨tokens, behind, later, ran, split, left, placeBehind, logged⟩ :=
        run_whole place enough
      cases read : Place.read stop (.beforeOperand [] [] []) rest with
      | mk result remaining =>
          rw [read] at ran left logged
          subst left
          have performed : Call.parse.perform stream = pure (some result, later) := by
            rw [Call.perform, ran, pure_bind]
          have moves : Moves .parse stream (some result) later := by
            cases result with
            | ok expr =>
                obtain rfl := Place.read_eq_ok read
                have reach : later.current = stream.limit := by
                  rw [limit, placeBehind.current, split, List.append_nil]
                exact .tree reach logged
            | error error =>
                obtain ⟨_, -, head⟩ := Place.read_eq_error read
                exact .refusal (placeBehind.getElem?.trans (congrArg some head)) logged
          refine exists_entry_of_moves place more split placeBehind performed moves ?_
          rw [Call.answer, Parser.parse, read]
  | synchronize =>
      obtain ⟨tokens, behind, later, ran, split, left, placeBehind, logged, dropped⟩ :=
        run_synchronize place fits
      have performed : Call.synchronize.perform stream = pure (none, later) := by
        rw [Call.perform, ran, pure_bind]
      have moves : Moves .synchronize stream none later := by
        refine .skip (fun before => ?_) logged
        rw [limit, place.current, List.length_append] at before
        have some := List.length_pos_iff.mpr
          (dropped (List.length_pos_iff.mp (Nat.pos_of_lt_add_right before)))
        rw [place.current, placeBehind.current, List.length_append]
        exact Nat.lt_add_of_pos_right some
      refine exists_entry_of_moves place more split placeBehind performed moves ?_
      rw [Call.answer, left]

/-! ## Histories of calls -/

theorem history_cons {entry : Entry} {entries : List Entry} {last : Stream}
    (performed : entry.call.perform entry.before = pure (entry.reply, entry.after))
    (others : history entry.after calls = pure (entries, last)) :
    history entry.before (entry.call :: calls) = pure (entry :: entries, last) := by
  rw [history, performed, pure_bind]
  simp only [others, pure_bind]

theorem exists_history (among : stream.Among words stop unread) (calls : List Call) :
    ∃ entries last, history stream calls = pure (entries, last) ∧
      entries.map Entry.call = calls ∧ Chain stream entries last ∧
      (∀ entry ∈ entries, entry.Sound) ∧ last.Among words stop unread := by
  induction calls generalizing stream with
  | nil => exact ⟨[], stream, rfl, rfl, .nil, List.forall_mem_nil _, among⟩
  | cons call calls ih =>
      obtain ⟨entry, rfl, rfl, performed, sound, amongLater⟩ := exists_entry among call
      obtain ⟨entries, last, ran, called, chain, allSound, amongLast⟩ := ih amongLater
      exact ⟨entry :: entries, last, history_cons performed ran, by rw [List.map_cons, called],
        .cons chain, List.forall_mem_cons.mpr ⟨sound, allSound⟩, amongLast⟩

/-- Rounds of parsing and skipping. -/
def rounds : (count : Nat) → List Call
  | 0 => []
  | count + 1 => .parse :: .synchronize :: rounds count

/-- The position of the token that a call has reported. -/
def Entry.refusedAt? (entry : Entry) : Option Nat :=
  match entry.reply with
  | some (.error _) => some entry.after.current
  | _ => none

theorem Entry.Sound.limit {entry : Entry} (sound : entry.Sound) :
    entry.after.limit = entry.before.limit := by
  rw [Stream.limit, Stream.limit, sound.tokens]

/-- A call that skips reports nothing, and comes closer to the end unless it is there. -/
theorem Entry.Sound.skips {entry : Entry} (sound : entry.Sound)
    (skips : entry.call = .synchronize) :
    entry.refusedAt? = none ∧
      (entry.before.current < entry.before.limit → entry.before.current < entry.after.current) := by
  have moves := sound.moves
  rw [skips] at moves
  generalize replied : entry.reply = reply at moves
  cases moves with
  | skip further _ => exact ⟨by rw [refusedAt?, replied], further⟩

theorem Entry.mem_refusedAt? {entry : Entry} {position : Nat}
    (refused : position ∈ entry.refusedAt?) : position = entry.after.current := by
  unfold refusedAt? at refused
  split at refused
  next => exact (Option.mem_some.mp refused).symm
  next => cases refused

/-- A round of parsing and skipping comes closer to the end unless parsing gets there. -/
theorem Entry.Sound.round {parsed skipped : Entry} (parsedSound : parsed.Sound)
    (skippedSound : skipped.Sound) (between : parsed.after = skipped.before)
    (skips : skipped.call = .synchronize) :
    skipped.after.limit = parsed.before.limit ∧ skipped.refusedAt? = none ∧
      parsed.before.current ≤ skipped.before.current ∧
      skipped.before.current ≤ parsed.before.limit ∧
      min parsed.before.limit (skipped.before.current + 1) ≤ skipped.after.current := by
  obtain ⟨silent, further⟩ := skippedSound.skips skips
  have limit : skipped.before.limit = parsed.before.limit := between ▸ parsedSound.limit
  have forward := parsedSound.forward
  have within := parsedSound.within
  have forwardAgain := skippedSound.forward
  rw [between] at forward within
  rw [limit] at further
  exact ⟨skippedSound.limit.trans limit, silent, forward, within, by omega⟩

/-- A chain of rounds begins with a call that parses and one that skips. -/
theorem Chain.exists_round {count : Nat} (chain : Chain stream entries last)
    (called : entries.map Entry.call = rounds (count + 1)) :
    ∃ parsed skipped others, entries = parsed :: skipped :: others ∧ stream = parsed.before ∧
      parsed.after = skipped.before ∧ skipped.call = .synchronize ∧
      others.map Entry.call = rounds count ∧ Chain skipped.after others last := by
  rw [rounds, List.map_eq_cons_iff] at called
  obtain ⟨parsed, behind, rfl, -, called⟩ := called
  rw [List.map_eq_cons_iff] at called
  obtain ⟨skipped, others, rfl, skips, called⟩ := called
  cases chain with
  | cons chain =>
      generalize between : parsed.after = middle at chain
      cases chain with
      | cons chain => exact ⟨parsed, skipped, others, rfl, rfl, between, skips, called, chain⟩

/-- Every round comes closer to the end, so the tokens that are reported lie further on from
round to round until the end is reached. -/
theorem Chain.rounds_advance {count : Nat} (chain : Chain stream entries last)
    (sound : ∀ entry ∈ entries, entry.Sound)
    (called : entries.map Entry.call = rounds count) :
    min stream.limit (stream.current + count) ≤ last.current ∧
      (∀ position ∈ entries.filterMap Entry.refusedAt?, stream.current ≤ position) ∧
      (entries.filterMap Entry.refusedAt?).Pairwise fun first second =>
        first < second ∨ first = stream.limit := by
  induction count generalizing stream entries with
  | zero =>
      rw [rounds, List.map_eq_nil_iff] at called
      subst called
      cases chain with
      | nil => exact ⟨Nat.min_le_right _ _, List.forall_mem_nil _, .nil⟩
  | succ count ih =>
      obtain ⟨parsed, skipped, others, rfl, rfl, between, skips, called, chain⟩ :=
        chain.exists_round called
      rw [List.forall_mem_cons, List.forall_mem_cons] at sound
      obtain ⟨parsedSound, skippedSound, sound⟩ := sound
      obtain ⟨limit, silent, forward, within, further⟩ :=
        parsedSound.round skippedSound between skips
      obtain ⟨reach, above, increasing⟩ := ih chain sound called
      rw [limit] at reach increasing
      refine ⟨by omega, ?_⟩
      cases refused : parsed.refusedAt? with
      | none =>
          rw [List.filterMap_cons_none refused, List.filterMap_cons_none silent]
          refine ⟨fun position member => ?_, increasing⟩
          have behind := above position member
          omega
      | some position =>
          have place : position = skipped.before.current :=
            (parsed.mem_refusedAt? refused).trans (congrArg Stream.current between)
          rw [List.filterMap_cons_some refused, List.filterMap_cons_none silent,
            List.forall_mem_cons, List.pairwise_cons]
          refine ⟨⟨by omega, fun other member => ?_⟩, fun other member => ?_, increasing⟩
          · have behind := above other member
            omega
          · have behind := above other member
            omega

/-- A parser that is called again and again, to parse and to skip in any order, keeps its
tokens and goes forward among them, never behind the first mark of an end. It parses up to
that mark or stops at the token that it reports, and skipping reports nothing and drops a
token unless the end is reached. So rounds of parsing and skipping reach the end, after no
more rounds than there are tokens, and they report tokens further and further on. -/
theorem history_advances (log : Log) (tokens : List Token) (calls : List Call) :
    let start : Stream := ⟨Automaton.closed tokens, 0, log⟩
    start.parser = Parser.ofTokens tokens ∧
      ∃ entries last, history start calls = pure (entries, last) ∧
        entries.map Entry.call = calls ∧ Chain start entries last ∧
        (∀ entry ∈ entries, entry.Sound) ∧ last.tokens = start.tokens ∧
        ∀ count, ∃ others final, history last (rounds count) = pure (others, final) ∧
          Chain last others final ∧ (∀ entry ∈ others, entry.Sound) ∧
          (tokens.length ≤ count → final.current = start.limit) ∧
          (others.filterMap Entry.refusedAt?).Pairwise fun first second =>
            first < second ∨ first = start.limit := by
  intro start
  obtain ⟨unread, closed⟩ := Automaton.closed_eq tokens
  have more := Parser.ofTokens_more tokens
  have place : start.At [] (Parser.ofTokens tokens).remaining (Parser.ofTokens tokens).stop
      unread := ⟨closed, rfl, more, Parser.ofTokens_ends tokens⟩
  have among : start.Among (Parser.ofTokens tokens).remaining (Parser.ofTokens tokens).stop
      unread := ⟨[], _, rfl, more, place⟩
  refine ⟨place.parser, ?_⟩
  obtain ⟨entries, last, ran, called, chain, sound, amongLast⟩ := exists_history among calls
  refine ⟨entries, last, ran, called, chain, sound,
    amongLast.tokens_eq.trans among.tokens_eq.symm, fun count => ?_⟩
  obtain ⟨others, final, ranOn, calledOn, chainOn, soundOn, amongFinal⟩ :=
    exists_history amongLast (rounds count)
  obtain ⟨reach, -, increasing⟩ := chainOn.rounds_advance soundOn calledOn
  have limitLast : last.limit = start.limit := amongLast.limit.trans among.limit.symm
  rw [limitLast] at reach increasing
  refine ⟨others, final, ranOn, chainOn, soundOn, fun enough => ?_, increasing⟩
  have fewer : start.limit ≤ tokens.length := by
    rw [among.limit]
    exact (List.takeWhile_sublist _).length_le
  have within := amongFinal.current_le
  rw [amongFinal.limit, ← among.limit] at within
  omega

end Descent

end Reckon
