import Reckon.Proofs.Checked
import Reckon.Proofs.Expr.Automaton
import Reckon.Proofs.Expr.Reading

/-!
# Recursive descent

An expression can also be read with one function for every level of the grammar, which
calls those of tighter levels and looks at the tokens by their index in a list. This
module proves that no index is out of bounds, and that the functions read what is read in
one pass over the tokens and fail where that fails.
-/

namespace Reckon

/-- Tokens, the index of the next one, and the log that errors are reported in. -/
structure Stream where
  tokens : List Token
  current : Nat
  log : Log

/-- Reading from a stream. An error leaves the stream where it is. -/
abbrev Descent (α : Type) := ExceptT SyntaxError (StateT Stream (ExceptT Panic Option)) α

namespace Descent

def token (index : Nat) : Descent Token := do
  match (← getThe Stream).tokens[index]? with
  | some token => return token
  | none => fun _ => throw (.index index)

def peek : Descent Token := do
  token (← getThe Stream).current

def previous : Descent Token := do
  token ((← getThe Stream).current - 1)

def isAtEnd : Descent Bool := do
  return (← peek).kind == .eof

/-- Whether the next token is of a kind. A mark of the end is of no kind that is asked for. -/
def check (kind : Kind) : Descent Bool := do
  if ← isAtEnd then return false
  return (← peek).kind == kind

/-- Go behind the next token, but not behind a mark of the end. -/
def advance : Descent Token := do
  unless ← isAtEnd do
    modifyThe Stream fun stream => { stream with current := stream.current + 1 }
  previous

/-- The next token if it is of one of some kinds. -/
def matchAny : List Kind → Descent (Option Token)
  | [] => return none
  | kind :: kinds => do
      if ← check kind then return some (← advance)
      matchAny kinds

/-- Report that something was expected instead of the next token. -/
def fail {α : Type} (expectation : Expectation) : Descent α := do
  let error := ⟨expectation, ← peek⟩
  modifyThe Stream fun stream => { stream with log := stream.log.report error.diagnostic }
  throw error

/-- The next token, which has to be of a kind. -/
def consume (kind : Kind) (expectation : Expectation) : Descent Token := do
  if ← check kind then advance else fail expectation

/-- A literal that the next token stands for. -/
def literal (value : Value) : Descent Expr := do
  let _ ← advance
  return .literal value

/-- Reading that has no steps left. -/
def unended {α : Type} : Descent α := ExceptT.mk fun _ => Checked.unended

/-- An expression between parentheses. -/
def group (inner : Descent Expr) : Descent Expr := do
  let _ ← advance
  let inner ← inner
  let _ ← consume .rightParen .closingParenthesis
  return .grouping inner

/-- The operators of a level behind a left operand, each with its right operand. Every
operator is a step. -/
def operators (own : Level) (operand : Descent Expr) : (steps : Nat) → Expr → Descent Expr
  | 0, _ => unended
  | steps + 1, left => do
      match ← matchAny own.operators with
      | some operator => operators own operand steps (.binary operator left (← operand))
      | none => return left

/-- An expression of a level. Every call is a step. -/
def level : (steps : Nat) → Level → Descent Expr
  | 0, _ => unended
  | steps + 1, .expression => level steps .equality
  | steps + 1, .unary => do
      match ← matchAny [.bang, .minus] with
      | some operator => return .unary operator (← level steps .unary)
      | none => level steps .primary
  | steps + 1, .primary => do
      match (← peek).kind with
      | .keyword .falseWord => literal (.boolean false)
      | .keyword .trueWord => literal (.boolean true)
      | .keyword .nilWord => literal .nil
      | .number | .string => literal ((← peek).literal.getD .nil)
      | .leftParen => group (level steps .expression)
      | _ => fail .expression
  | steps + 1, own => do
      operators own (level steps own.tighter) steps (← level steps own.tighter)

/-- An expression that ends where the tokens do. -/
def whole (steps : Nat) : Descent Expr := do
  let expr ← level steps .expression
  if ← isAtEnd then return expr else fail .endOfExpression

/-! ## Running -/

def run {α : Type} (descent : Descent α) (stream : Stream) :
    Checked (Except SyntaxError α × Stream) :=
  StateT.run (ExceptT.run descent) stream

section Run

variable {α β : Type} (stream : Stream)

@[simp] theorem run_pure (value : α) : run (pure value) stream = pure (.ok value, stream) := rfl

@[simp] theorem run_get : run get stream = pure (.ok stream, stream) := rfl

@[simp] theorem run_modifyGet (change : Stream → α × Stream) :
    run (modifyGet change) stream = pure (.ok (change stream).1, (change stream).2) := rfl

@[simp] theorem run_throw (error : SyntaxError) :
    run (throw error : Descent α) stream = pure (.error error, stream) := rfl

@[simp] theorem run_bind (descent : Descent α) (next : α → Descent β) :
    run (descent >>= next) stream =
      run descent stream >>= fun outcome =>
        match outcome.1 with
        | .ok value => run (next value) outcome.2
        | .error error => pure (.error error, outcome.2) := by
  simp only [run, ExceptT.run_bind, StateT.run_bind]
  congr 1
  funext outcome
  cases outcome.1 <;> rfl

@[simp] theorem run_map (change : α → β) (descent : Descent α) :
    run (change <$> descent) stream =
      run descent stream >>= fun outcome =>
        match outcome.1 with
        | .ok value => pure (.ok (change value), outcome.2)
        | .error error => pure (.error error, outcome.2) := by
  rw [map_eq_pure_bind, run_bind]
  rfl

end Run

end Descent

/-! ## Streams at a place -/

/-- A stream that has read some tokens and has others before it, up to a mark of the end.
What is behind the mark stays unread. The index of the next token is the number of those that
have been read. -/
structure Stream.At (stream : Stream) (consumed rest : List Token) (stop : Token)
    (unread : List Token) : Prop where
  tokens : stream.tokens = consumed ++ rest ++ stop :: unread
  current : stream.current = consumed.length
  more : ∀ token ∈ rest, token.kind ≠ .eof
  ends : stop.kind = .eof

/-- The stream behind its next token. -/
def Stream.moved (stream : Stream) : Stream := { stream with current := stream.current + 1 }

/-- The first of some tokens, or the mark that they end at. -/
def ahead (stop : Token) (rest : List Token) : Token := rest.head?.getD stop

variable {stream later : Stream} {consumed rest behind tokens unread : List Token}
variable {token stop : Token}

theorem begins_or_not (accepts : Token → Prop) (tokens : List Token) :
    (∃ token rest, tokens = token :: rest ∧ accepts token) ∨
      ∀ token ∈ tokens.head?, ¬accepts token := by
  cases tokens with
  | nil => exact .inr (by simp)
  | cons token rest =>
      by_cases accepted : accepts token
      · exact .inl ⟨token, rest, rfl, accepted⟩
      · exact .inr (by simpa using accepted)

theorem Stream.At.moved (place : stream.At consumed (token :: rest) stop unread) :
    stream.moved.At (consumed ++ [token]) rest stop unread := by
  obtain ⟨tokens, current, more, ends⟩ := place
  refine ⟨?_, ?_, fun token member => more token (List.mem_cons_of_mem _ member), ends⟩
  · rw [Stream.moved, tokens]
    simp
  · rw [Stream.moved, current, List.length_append]
    rfl

namespace Descent

theorem run_token {index : Nat} (found : stream.tokens[index]? = some token) :
    run (Descent.token index) stream = pure (.ok token, stream) := by
  simp [Descent.token, found]

theorem run_peek (place : stream.At consumed rest stop unread) :
    run peek stream = pure (.ok (ahead stop rest), stream) := by
  have found : stream.tokens[stream.current]? = some (ahead stop rest) := by
    rw [place.tokens, place.current]
    cases rest <;> simp [ahead]
  simp [peek, run_token found]

example : run peek ⟨[], 0, Log.empty⟩ = throw (.index 0) := rfl

theorem run_isAtEnd (place : stream.At consumed rest stop unread) :
    run isAtEnd stream = pure (.ok rest.isEmpty, stream) := by
  cases rest with
  | nil => simp [isAtEnd, run_peek place, ahead, place.ends]
  | cons token rest =>
      have more := beq_false_of_ne (place.more token List.mem_cons_self)
      simp [isAtEnd, run_peek place, ahead, more]

theorem run_previous (place : stream.At (consumed ++ [token]) rest stop unread) :
    run previous stream = pure (.ok token, stream) := by
  have found : stream.tokens[stream.current - 1]? = some token := by
    rw [place.tokens, place.current]
    simp
  simp [previous, run_token found]

theorem run_advance (place : stream.At consumed (token :: rest) stop unread) :
    run advance stream = pure (.ok token, stream.moved) := by
  have behind := run_previous place.moved
  rw [Stream.moved] at behind ⊢
  simp [advance, run_isAtEnd place, behind]

theorem run_check_own (place : stream.At consumed (token :: rest) stop unread) :
    run (check token.kind) stream = pure (.ok true, stream) := by
  simp [check, run_isAtEnd place, run_peek place, ahead]

theorem run_check_other {kind : Kind} (other : ∀ token ∈ rest.head?, token.kind ≠ kind)
    (place : stream.At consumed rest stop unread) :
    run (check kind) stream = pure (.ok false, stream) := by
  cases rest with
  | nil => simp [check, run_isAtEnd place]
  | cons token rest =>
      have differs := beq_false_of_ne (other token rfl)
      simp [check, run_isAtEnd place, run_peek place, ahead, differs]

theorem run_matchAny_some {kinds : List Kind} (member : token.kind ∈ kinds)
    (place : stream.At consumed (token :: rest) stop unread) :
    run (matchAny kinds) stream = pure (.ok (some token), stream.moved) := by
  induction kinds with
  | nil => cases member
  | cons kind kinds ih =>
      by_cases same : token.kind = kind
      · simp [matchAny, ← same, run_check_own place, run_advance place]
      · have other : ∀ next ∈ (token :: rest).head?, next.kind ≠ kind := by simpa using same
        have later := ih ((List.mem_cons.mp member).resolve_left same)
        simp [matchAny, run_check_other other place, later]

theorem run_matchAny_none {kinds : List Kind}
    (other : ∀ token ∈ rest.head?, token.kind ∉ kinds)
    (place : stream.At consumed rest stop unread) :
    run (matchAny kinds) stream = pure (.ok none, stream) := by
  induction kinds with
  | nil => rfl
  | cons kind kinds ih =>
      have differs : ∀ token ∈ rest.head?, token.kind ≠ kind :=
        fun token head => List.ne_of_not_mem_cons (other token head)
      have later := ih fun token head => List.not_mem_of_not_mem_cons (other token head)
      simp [matchAny, run_check_other differs place, later]

/-- The stream in which an error has been reported. -/
def reported (stream : Stream) (error : SyntaxError) : Stream :=
  { stream with log := stream.log.report error.diagnostic }

theorem at_reported (place : stream.At consumed rest stop unread) (error : SyntaxError) :
    (reported stream error).At consumed rest stop unread :=
  ⟨place.tokens, place.current, place.more, place.ends⟩

theorem run_fail {α : Type} (expectation : Expectation)
    (place : stream.At consumed rest stop unread) :
    run (fail expectation : Descent α) stream =
      pure (.error ⟨expectation, ahead stop rest⟩,
        reported stream ⟨expectation, ahead stop rest⟩) := by
  simp [fail, run_peek place, reported]

theorem run_literal (value : Value) (place : stream.At consumed (token :: rest) stop unread) :
    run (literal value) stream = pure (.ok (.literal value), stream.moved) := by
  simp [literal, run_advance place]

theorem run_consume_own {expectation : Expectation}
    (place : stream.At consumed (token :: rest) stop unread) :
    run (consume token.kind expectation) stream = pure (.ok token, stream.moved) := by
  simp [consume, run_check_own place, run_advance place]

theorem run_consume_other {kind : Kind} (expectation : Expectation)
    (other : ∀ token ∈ rest.head?, token.kind ≠ kind)
    (place : stream.At consumed rest stop unread) :
    run (consume kind expectation) stream =
      pure (.error ⟨expectation, ahead stop rest⟩,
        reported stream ⟨expectation, ahead stop rest⟩) := by
  simp [consume, run_check_other other place, run_fail expectation place]

end Descent

/-! ## What a level comes to -/

open Descent

/-- Nothing of a level or a tighter one goes on with some tokens. -/
def Level.Ends (own : Level) (behind : List Token) : Prop :=
  ∀ token ∈ behind.head?, ∀ other : Level, own.rank ≤ other.rank → token.kind ∉ other.operators

/-- Reading in one pass fails on some tokens wherever an operand of a level is expected, and
it stops before the tokens `behind`. -/
def Level.FailsOn (own : Level) (stop : Token) (rest : List Token) (error : SyntaxError)
    (behind : List Token) : Prop :=
  ∀ (lefts : List Waiting) (signs : List Token) (outers : List Outer),
    signs = [] ∨ Level.unary.rank ≤ own.rank →
    (∀ waiting ∈ lefts.head?, waiting.tightness + 1 < own.rank) →
    Place.read stop (.beforeOperand lefts signs outers) rest = (.error error, behind)

/-- What the function of a level may come to on the tokens before a stream: it reads a tree
of the level, as far as the level goes, or it reports that reading in one pass fails, and
stops where that stops. -/
inductive Level.Outcome (own : Level) (stop : Token) (unread consumed rest : List Token)
    (log : Log) :
    Except SyntaxError Expr × Stream → Prop where
  | read {tokens behind : List Token} {expr : Expr} {later : Stream} :
      rest = tokens ++ behind → expr.Stratified own → expr.Yields tokens → own.Ends behind →
      later.At (consumed ++ tokens) behind stop unread → later.log = log →
      Outcome own stop unread consumed rest log (.ok expr, later)
  | failed {tokens behind : List Token} {error : SyntaxError} {later : Stream} :
      rest = tokens ++ behind → own.FailsOn stop rest error behind →
      later.At (consumed ++ tokens) behind stop unread → later.log = log.report error.diagnostic →
      Outcome own stop unread consumed rest log (.error error, later)

variable {own looser : Level} {error : SyntaxError} {log : Log} {steps : Nat}

theorem Level.FailsOn.loosen (fails : own.FailsOn stop rest error behind)
    (ranked : looser.rank ≤ own.rank) : looser.FailsOn stop rest error behind :=
  fun lefts signs outers unsigned bound =>
    fails lefts signs outers (unsigned.imp_right fun less => Nat.le_trans less ranked)
      fun waiting member => Nat.lt_of_lt_of_le (bound waiting member) ranked

/-- A level ends where the next one does if no operator of its own follows. -/
theorem Level.Ends.loosen (ends : own.tighter.Ends behind)
    (other : ∀ token ∈ behind.head?, token.kind ∉ own.operators) : own.Ends behind := by
  intro token head level ranked
  by_cases same : level = own
  · rw [same]
    exact other token head
  · by_cases primary : own = .primary
    · cases primary
      exact ends token head level ranked
    · have apart : own.rank ≠ level.rank := fun equal => same (Level.rank_injective equal.symm)
      have next := Level.rank_tighter primary
      exact ends token head level (by omega)

/-- A level without operators of its own comes to what the next one does. -/
theorem Level.Outcome.loosen {outcome : Except SyntaxError Expr × Stream}
    (came : own.tighter.Outcome stop unread consumed rest log outcome) (bare : own.operators = []) :
    own.Outcome stop unread consumed rest log outcome := by
  cases came with
  | read split stratified yields ends place same =>
      exact .read split (stratified.loosen (Level.rank_le_tighter own)) yields
        (ends.loosen (by simp [bare])) place same
  | failed split fails place reported =>
      exact .failed split (fails.loosen (Level.rank_le_tighter own)) place reported

/-- What a computation comes to on a stream. -/
def Descent.ComesTo (descent : Descent Expr) (stream : Stream) (own : Level) (stop : Token)
    (unread consumed rest : List Token) (log : Log) : Prop :=
  ∃ outcome, run descent stream = pure outcome ∧ own.Outcome stop unread consumed rest log outcome

/-- No operator stands before an end of all levels. -/
theorem Level.Ends.tightness? (ends : Level.expression.Ends behind)
    (head : token ∈ behind.head?) : token.kind.tightness? = none := by
  cases known : token.kind.tightness? with
  | none => rfl
  | some tightness =>
      obtain ⟨own, member, -⟩ := Level.tightness?_eq_some_iff.mp known
      exact absurd member (ends token head own (Nat.zero_le _))

/-- Reading in one pass fails at the first of some tokens, or at their end. -/
theorem Place.read_refused {place : Place} {expectation : Expectation}
    (atEnd : rest = [] → place.finish = .error expectation)
    (atHead : ∀ token ∈ rest.head?, place.step token = .error expectation) :
    place.read stop rest = (.error ⟨expectation, ahead stop rest⟩, rest) := by
  cases rest with
  | nil =>
      rw [Place.read, atEnd rfl]
      rfl
  | cons token rest =>
      rw [Place.read, atHead token rfl]
      rfl

namespace Descent

/-! ## Operands -/

/-- No operators bind more tightly than signs do. -/
theorem ends_primary (behind : List Token) : Level.primary.Ends behind := by
  intro token head own ranked member
  have bound := (Level.rank_of_mem_operators member).2.1
  exact absurd (Nat.lt_of_le_of_lt ranked bound) (by decide)

/-- The function of the last level goes by the token that it is called at. -/
theorem run_primary (place : stream.At consumed rest stop unread) :
    run (level (steps + 1) .primary) stream =
      match (ahead stop rest).operand? with
      | some value => run (literal value) stream
      | none =>
          if (ahead stop rest).kind = .leftParen then
            run (group (level steps .expression)) stream
          else run (fail .expression) stream := by
  cases kind : (ahead stop rest).kind with
  | keyword word => cases word <;> simp [level, Token.operand?, run_peek place, kind]
  | _ => simp [level, Token.operand?, run_peek place, kind]

theorem primary_literal {value : Value} (place : stream.At consumed (token :: rest) stop unread)
    (known : token.operand? = some value) :
    (level (steps + 1) .primary).ComesTo stream .primary stop unread consumed (token :: rest)
      stream.log := by
  refine ⟨(.ok (.literal value), stream.moved), ?_, ?_⟩
  · rw [run_primary place, ahead, List.head?_cons, Option.getD_some, known]
    exact run_literal value place
  · exact .read rfl .literal (.literal (Token.operand?_eq_some_iff.mp known))
      (ends_primary rest) place.moved rfl

theorem primary_missing (place : stream.At consumed rest stop unread)
    (unsigned : ∀ token ∈ rest.head?, token.kind.isSign = false)
    (noLiteral : ∀ token ∈ rest.head?, token.operand? = none)
    (noGroup : ∀ token ∈ rest.head?, token.kind ≠ .leftParen) :
    (level (steps + 1) .primary).ComesTo stream .primary stop unread consumed rest stream.log := by
  have missing : run (level (steps + 1) .primary) stream = run (fail .expression) stream := by
    rw [run_primary place]
    cases rest with
    | nil => simp [ahead, Token.operand?, place.ends]
    | cons token rest =>
        have noLiteral : token.operand? = none := noLiteral token rfl
        have noGroup : token.kind ≠ .leftParen := noGroup token rfl
        simp [ahead, noLiteral, noGroup]
  have stays := at_reported place ⟨.expression, ahead stop rest⟩
  rw [← List.append_nil consumed] at stays
  refine ⟨_, missing.trans (run_fail .expression place), .failed rfl ?_ stays rfl⟩
  intro lefts signs outers _ _
  apply Place.read_refused (fun _ => rfl)
  intro token head
  simp [Place.step, unsigned token head, noLiteral token head, noGroup token head]

theorem primary_group (place : stream.At consumed (token :: rest) stop unread)
    (isOpening : token.kind = .leftParen)
    (inside : (level steps .expression).ComesTo stream.moved .expression stop unread
      (consumed ++ [token]) rest stream.log) :
    (level (steps + 1) .primary).ComesTo stream .primary stop unread consumed (token :: rest)
      stream.log := by
  have opened : run (level (steps + 1) .primary) stream =
      run (group (level steps .expression)) stream := by
    rw [run_primary place]
    simp [ahead, Token.operand?, isOpening]
  obtain ⟨_, ran, came⟩ := inside
  cases came with
  | @failed tokens behind error later split fails behindPlace reported =>
      have behindPlace : later.At (consumed ++ token :: tokens) behind stop unread := by
        simpa using behindPlace
      refine ⟨(.error error, later), ?_,
        .failed (congrArg (token :: ·) split) ?_ behindPlace reported⟩
      · simp [opened, group, run_advance place, ran]
      · intro lefts signs outers _ _
        rw [Place.read_cons (Place.step_opening isOpening)]
        exact fails [] [] _ (.inl rfl) (by simp)
  | @read tokens behind inner later split stratified yields ends behindPlace same =>
      have reads : run (group (level steps .expression)) stream =
          run (consume .rightParen .closingParenthesis >>= fun _ => pure (.grouping inner))
            later := by
        simp [group, run_advance place, ran]
      rcases begins_or_not (·.kind = .rightParen) behind with
        ⟨closing, after, rfl, isClosing⟩ | other
      · refine ⟨(.ok (.grouping inner), later.moved), ?_, ?_⟩
        · have closes := @run_consume_own _ _ _ _ _ _ .closingParenthesis behindPlace
          rw [isClosing] at closes
          simp [opened, reads, closes]
        · have whole : token :: rest = (token :: tokens ++ [closing]) ++ after := by simp [split]
          have moved : later.moved.At (consumed ++ (token :: tokens ++ [closing])) after stop
              unread := by
            simpa using behindPlace.moved
          exact .read whole (.grouping stratified) (.grouping isOpening isClosing yields)
            (ends_primary after) moved same
      · have stuck : run (level (steps + 1) .primary) stream =
            pure (.error ⟨.closingParenthesis, ahead stop behind⟩,
              reported later ⟨.closingParenthesis, ahead stop behind⟩) := by
          simp [opened, reads, run_consume_other .closingParenthesis other behindPlace]
        have stays := at_reported behindPlace ⟨.closingParenthesis, ahead stop behind⟩
        rw [List.append_assoc] at stays
        refine ⟨_, stuck, .failed (congrArg (token :: ·) split) ?_ stays
          (congrArg (Log.report · _) same)⟩
        intro lefts signs outers _ _
        rw [Place.read_cons (Place.step_opening isOpening), split]
        obtain ⟨lefts', operand, read, -⟩ :=
          yields.read stratified [] [] (⟨lefts, signs⟩ :: outers) behind (.inl rfl) (by simp)
        rw [read]
        apply Place.read_refused (fun _ => rfl)
        intro token head
        simp [Place.step, ends.tightness? head, other token head]

theorem unary_sign (place : stream.At consumed (token :: rest) stop unread)
    (sign : token.kind = .bang ∨ token.kind = .minus)
    (operand : (level steps .unary).ComesTo stream.moved .unary stop unread
      (consumed ++ [token]) rest stream.log) :
    (level (steps + 1) .unary).ComesTo stream .unary stop unread consumed (token :: rest)
      stream.log := by
  have member : token.kind ∈ [Kind.bang, Kind.minus] := by simpa using sign
  have signed : run (level (steps + 1) .unary) stream =
      run (level steps .unary >>= fun operand => pure (.unary token operand)) stream.moved := by
    simp [level, run_matchAny_some member place]
  obtain ⟨_, ran, came⟩ := operand
  cases came with
  | @failed tokens behind error later split fails behindPlace reported =>
      have behindPlace : later.At (consumed ++ token :: tokens) behind stop unread := by
        simpa using behindPlace
      refine ⟨(.error error, later), ?_,
        .failed (congrArg (token :: ·) split) ?_ behindPlace reported⟩
      · simp [signed, ran]
      · intro lefts signs outers _ looser
        rw [Place.read_cons (Place.step_sign sign)]
        exact fails lefts _ outers (.inr (Nat.le_refl _)) looser
  | @read tokens behind operand later split stratified yields ends behindPlace same =>
      refine ⟨(.ok (.unary token operand), later), ?_, ?_⟩
      · simp [signed, ran]
      · exact .read (congrArg (token :: ·) split) (.unary sign (Nat.le_refl _) stratified)
          (.unary yields) ends (by simpa using behindPlace) same

theorem unary_bare (place : stream.At consumed rest stop unread)
    (unsigned : ∀ token ∈ rest.head?, token.kind.isSign = false)
    (operand : (level steps .primary).ComesTo stream .primary stop unread consumed rest
      stream.log) :
    (level (steps + 1) .unary).ComesTo stream .unary stop unread consumed rest stream.log := by
  have other : ∀ token ∈ rest.head?, token.kind ∉ [Kind.bang, Kind.minus] := by
    intro token head member
    have sign := Kind.isSign_iff.mpr (by simpa using member)
    rw [unsigned token head] at sign
    cases sign
  obtain ⟨outcome, ran, came⟩ := operand
  refine ⟨outcome, ?_, @Level.Outcome.loosen _ _ _ _ .unary _ _ came rfl⟩
  simp [level, run_matchAny_none other place, ran]

/-! ## Operators -/

section Operators

variable {left : Expr} {operand : Descent Expr}

theorem operators_done (place : stream.At (consumed ++ tokens) behind stop unread)
    (stratified : left.Stratified own) (yields : left.Yields tokens)
    (ends : own.tighter.Ends behind)
    (other : ∀ token ∈ behind.head?, token.kind ∉ own.operators) :
    (operators own operand (steps + 1) left).ComesTo stream own stop unread consumed
      (tokens ++ behind) stream.log := by
  refine ⟨(.ok left, stream), ?_, .read rfl stratified yields (ends.loosen other) place rfl⟩
  simp [operators, run_matchAny_none other place]

/-- Where the right operand of an operator is missing, reading in one pass is stuck behind
the operator, with the left operand on its stack. -/
theorem failsOn_right (member : token.kind ∈ own.operators) (stratified : left.Stratified own)
    (yields : left.Yields tokens) (fails : own.tighter.FailsOn stop behind error rest) :
    own.FailsOn stop (tokens ++ token :: behind) error rest := by
  intro lefts signs outers unsigned looser
  obtain ⟨positive, small, next⟩ := Level.rank_of_mem_operators member
  obtain ⟨tightness, ranked⟩ : ∃ tightness, own.rank = tightness + 1 :=
    ⟨own.rank - 1, by omega⟩
  obtain rfl : signs = [] := unsigned.resolve_right (by omega)
  obtain ⟨lefts', operand, read, -⟩ :=
    yields.read stratified lefts [] outers (token :: behind) (.inl rfl) looser
  rw [read, Place.read_cons (Place.step_operator member ranked)]
  apply fails _ [] outers (.inl rfl)
  intro waiting head
  cases head
  simp only
  omega

/-- A computation reads operands of a level on up to a number of tokens. Before those of the
last level signs have been read. -/
def Reads (operand : Descent Expr) (own : Level) (stop : Token) (size : Nat) : Prop :=
  ∀ {stream : Stream} {consumed rest unread : List Token}, rest.length ≤ size →
    stream.At consumed rest stop unread →
    (own = .primary → ∀ token ∈ rest.head?, token.kind.isSign = false) →
    operand.ComesTo stream own stop unread consumed rest stream.log

variable {size : Nat}

theorem tighter_ne_primary (chain : own.operators ≠ []) : own.tighter ≠ .primary := by
  cases own <;> first | exact absurd rfl chain | decide

/-- The loop over the operators of a level joins every operator and its right operand to all
before them. -/
theorem operators_comesTo (chain : own.operators ≠ [])
    (reads : Reads operand own.tighter stop size)
    (short : behind.length ≤ size) (enough : behind.length < steps)
    (place : stream.At (consumed ++ tokens) behind stop unread) (stratified : left.Stratified own)
    (yields : left.Yields tokens) (ends : own.tighter.Ends behind) :
    (operators own operand steps left).ComesTo stream own stop unread consumed (tokens ++ behind)
      stream.log := by
  induction steps generalizing stream tokens behind left with
  | zero => exact absurd enough (Nat.not_lt_zero _)
  | succ steps ih =>
      rcases begins_or_not (·.kind ∈ own.operators) behind with
        ⟨token, behind, rfl, member⟩ | other
      · rw [List.length_cons] at short enough
        have joins : run (operators own operand (steps + 1) left) stream =
            run (operand >>= fun right => operators own operand steps (.binary token left right))
              stream.moved := by
          simp [operators, run_matchAny_some member place]
        obtain ⟨_, ran, came⟩ :=
          reads (by omega) place.moved fun last => absurd last (tighter_ne_primary chain)
        cases came with
        | @failed more after error later split fails placeAfter reported =>
            have placeAfter : later.At (consumed ++ (tokens ++ token :: more)) after stop
                unread := by
              simpa using placeAfter
            have whole : tokens ++ token :: behind = (tokens ++ token :: more) ++ after := by
              simp [split]
            refine ⟨(.error error, later), ?_, .failed whole ?_ placeAfter reported⟩
            · simp [joins, ran]
            · exact failsOn_right member stratified yields fails
        | @read more after right later split rightStratified rightYields endsAfter placeAfter
            same =>
            have lengths := congrArg List.length split
            rw [List.length_append] at lengths
            have placeAfter : later.At (consumed ++ (tokens ++ token :: more)) after stop
                unread := by
              simpa using placeAfter
            have joined : (Expr.binary token left right).Stratified own :=
              .binary member (Nat.le_refl _) stratified rightStratified
            obtain ⟨outcome, ranOthers, came⟩ := ih (by omega) (by omega) placeAfter joined
              (.binary yields rightYields) endsAfter
            have kept : later.log = stream.log := same
            refine ⟨outcome, ?_, ?_⟩
            · simp [joins, ran, ranOthers]
            · rw [split, ← kept]
              simpa using came
      · exact operators_done place stratified yields ends other

end Operators

/-! ## All levels -/

theorem primary_reads
    (inner : ∀ less < size, Reads (level steps .expression) .expression stop less) :
    Reads (level (steps + 1) .primary) .primary stop size := by
  intro stream consumed rest unread short place unsigned
  have unsigned := unsigned rfl
  cases rest with
  | nil => exact primary_missing place unsigned (by simp) (by simp)
  | cons token rest =>
      cases known : token.operand? with
      | some value => exact primary_literal place known
      | none =>
          by_cases isOpening : token.kind = .leftParen
          · exact primary_group place isOpening
              (inner rest.length short (Nat.le_refl _) place.moved nofun)
          · exact primary_missing place unsigned (by simpa using known)
              (by simpa using isOpening)

theorem unary_reads (shorter : ∀ less < size, Reads (level steps .unary) .unary stop less)
    (next : Reads (level steps .primary) .primary stop size) :
    Reads (level (steps + 1) .unary) .unary stop size := by
  intro stream consumed rest unread short place _
  cases rest with
  | nil => exact unary_bare place (by simp) (next short place (by simp))
  | cons token rest =>
      cases sign : token.kind.isSign with
      | true =>
          exact unary_sign place (Kind.isSign_iff.mp sign)
            (shorter rest.length short (Nat.le_refl _) place.moved nofun)
      | false =>
          have unsigned : ∀ other ∈ (token :: rest).head?, other.kind.isSign = false := by
            simpa using sign
          exact unary_bare place unsigned (next short place fun _ => unsigned)

/-- A level with operators reads an operand of the next level and goes on behind it. -/
theorem chain_reads (chain : own.operators ≠ []) (enough : size < steps)
    (next : Reads (level steps own.tighter) own.tighter stop size) :
    Reads (level (steps + 1) own) own stop size := by
  intro stream consumed rest unread short place _
  have chained : level (steps + 1) own =
      level steps own.tighter >>= operators own (level steps own.tighter) steps := by
    cases own with
    | equality | comparison | term | factor => rfl
    | expression | unary | primary => exact absurd rfl chain
  obtain ⟨_, ran, came⟩ := next short place fun last => absurd last (tighter_ne_primary chain)
  cases came with
  | @failed tokens behind error later split fails placeBehind reported =>
      refine ⟨(.error error, later), ?_,
        .failed split (fails.loosen own.rank_le_tighter) placeBehind reported⟩
      simp [chained, ran]
  | @read tokens behind left later split stratified yields ends placeBehind same =>
      rw [split, List.length_append] at short
      have fits : behind.length < steps := by omega
      obtain ⟨outcome, ranOthers, came⟩ := operators_comesTo chain next (by omega) fits
        placeBehind (stratified.loosen own.rank_le_tighter) yields ends
      refine ⟨outcome, ?_, ?_⟩
      · simp [chained, ran, ranOthers]
      · rw [split, ← same]
        exact came

theorem expression_reads (next : Reads (level steps .equality) .equality stop size) :
    Reads (level (steps + 1) .expression) .expression stop size := by
  intro stream consumed rest unread short place _
  obtain ⟨outcome, ran, came⟩ := next short place nofun
  exact ⟨outcome, ran, @Level.Outcome.loosen _ _ _ _ .expression _ _ came rfl⟩

/-- How deep the calls from a level on are nested on a number of tokens: once through all
levels, and once more for every token. -/
def depth (own : Level) (size : Nat) : Nat := 8 * size + (8 - own.rank)

/-- The functions of all levels come to a tree or to the error of reading in one pass. -/
theorem level_reads (stop : Token) {size steps : Nat} (own : Level)
    (enough : depth own size ≤ steps) : Reads (level steps own) own stop size := by
  -- Every call is to the next level on as many tokens or to any level on fewer.
  induction steps generalizing own size with
  | zero =>
      have positive : 0 < depth own size := by cases own <;> simp [depth, Level.rank]
      omega
  | succ steps ih =>
      cases own with
      | expression =>
          simp only [depth, Level.rank] at enough
          exact expression_reads (ih .equality (by simp only [depth, Level.rank]; omega))
      | equality | comparison | term | factor =>
          simp only [depth, Level.rank] at enough
          exact chain_reads (by decide) (by omega)
            (ih _ (by simp only [depth, Level.tighter, Level.rank]; omega))
      | unary =>
          simp only [depth, Level.rank] at enough
          exact unary_reads
            (fun less short => ih .unary (by simp only [depth, Level.rank]; omega))
            (ih .primary (by simp only [depth, Level.rank]; omega))
      | primary =>
          simp only [depth, Level.rank] at enough
          exact primary_reads
            fun less short => ih .expression (by simp only [depth, Level.rank]; omega)

/-! ## Whole lists of tokens -/

def parseTokens (log : Log) (tokens : List Token) : Checked (Option Expr × Log) := do
  let steps := depth .expression tokens.length
  let (result, stream) ← run (whole steps) ⟨Automaton.closed tokens, 0, log⟩
  return (result.toOption, stream.log)

/-- Reading an expression that ends where the tokens do comes to what reading in one pass
comes to, and the stream is left before the same tokens. -/
theorem run_whole (place : stream.At consumed rest stop unread)
    (enough : depth .expression rest.length ≤ steps) :
    ∃ tokens behind later,
      run (whole steps) stream =
        pure ((Place.read stop (.beforeOperand [] [] []) rest).1, later) ∧
      rest = tokens ++ behind ∧ (Place.read stop (.beforeOperand [] [] []) rest).2 = behind ∧
      later.At (consumed ++ tokens) behind stop unread ∧
      later.log = match (Place.read stop (.beforeOperand [] [] []) rest).1 with
        | .ok _ => stream.log
        | .error error => stream.log.report error.diagnostic := by
  obtain ⟨_, ran, came⟩ := level_reads stop .expression enough (Nat.le_refl _) place nofun
  cases came with
  | @failed tokens behind error later split fails placeBehind reported =>
      rw [fails [] [] [] (.inl rfl) (by simp)]
      exact ⟨tokens, behind, later, by simp [whole, ran], split, rfl, placeBehind, reported⟩
  | @read tokens behind expr later split stratified yields ends placeBehind same =>
      obtain ⟨lefts, operand, read, -⟩ :=
        yields.read stratified [] [] [] behind (.inl rfl) (by simp)
      cases behind with
      | nil =>
          have derives : Derives .expression rest expr := by
            rw [split, List.append_nil]
            exact derives_iff_stratified_and_yields.mpr ⟨stratified, yields⟩
          rw [(Place.read_eq_ok_iff stop).mpr derives]
          have nothingLeft : (Place.read stop (.beforeOperand [] [] []) rest).2 = [] := by
            rw [split, read, Place.read]
          exact ⟨tokens, [], later, by simp [whole, ran, run_isAtEnd placeBehind], split,
            nothingLeft, placeBehind, same⟩
      | cons token behind =>
          have refused : Place.read stop (.beforeOperand [] [] []) rest =
              (.error ⟨.endOfExpression, token⟩, token :: behind) := by
            have step : (Place.behindOperand lefts operand []).step token =
                .error .endOfExpression := by
              simp only [Place.step, ends.tightness? rfl]
            rw [split, read, Place.read, step]
          rw [refused]
          have fails := run_fail (α := Expr) .endOfExpression placeBehind
          exact ⟨tokens, token :: behind, _,
            by simp [whole, ran, run_isAtEnd placeBehind, fails, ahead], split, rfl,
            at_reported placeBehind _, congrArg (Log.report · _) same⟩

/-- Recursive descent needs no token that there is not. It ends, and parses every list of
tokens as reading in one pass does. -/
theorem parseTokens_eq (log : Log) (tokens : List Token) :
    parseTokens log tokens = pure (Session.parseTokens log tokens) := by
  obtain ⟨unread, closed⟩ := Automaton.closed_eq tokens
  have place : Stream.At ⟨Automaton.closed tokens, 0, log⟩ []
      (Parser.ofTokens tokens).remaining (Parser.ofTokens tokens).stop unread :=
    ⟨closed, rfl, Parser.ofTokens_more tokens, Parser.ofTokens_ends tokens⟩
  have fewer : (Parser.ofTokens tokens).remaining.length ≤ tokens.length :=
    (List.takeWhile_sublist _).length_le
  have enough : depth .expression (Parser.ofTokens tokens).remaining.length ≤
      depth .expression tokens.length := by
    unfold depth
    omega
  obtain ⟨_, _, later, ran, -, -, -, logged⟩ := run_whole place enough
  rw [parseTokens, ran, pure_bind]
  simp only [logged, Session.parseTokens, Parser.parse]
  split
  next expr read => simp [read, Except.toOption]
  next error read => simp [read, Except.toOption]

end Descent

end Reckon
