import Reckon.Proofs.Expr.Grammar

/-!
# Reading an expression

What waits on the parser's stack always yields exactly the tokens that have been
read, and the operators on it become tighter from the outside to the inside. So
every tree that is read is a derivation of its tokens. Conversely the tokens of a
derivation are read to its tree, so the grammar gives no token list two trees.
-/

namespace Reckon

variable {level own : Level} {expr operand : Expr} {token stop : Token}
variable {lefts : List Waiting} {before tokens consumed rest : List Token}
variable {tightness : Nat}

/-! ## What waits on the stack -/

/-- Left operands that wait, the innermost first, and the tokens that they and
their operators were read from. The level is that of the right operand that is
still missing; it becomes tighter with every operator. -/
inductive Waits : Level → List Waiting → List Token → Prop where
  | nothing : Waits .expression [] []
  | left {level own : Level} {waiting : Waiting} {lefts : List Waiting}
      {before tokens : List Token} :
      Waits level lefts before → level.rank ≤ own.rank →
      waiting.operator.kind ∈ own.operators → own.rank = waiting.tightness + 1 →
      waiting.left.Stratified own → waiting.left.Yields tokens →
      Waits own.tighter (waiting :: lefts) (before ++ tokens ++ [waiting.operator])

/-- What stands before open parentheses, the innermost first. -/
inductive Opened : List Outer → List Token → Prop where
  | nothing : Opened [] []
  | parenthesis {level : Level} {outer : Outer} {outers : List Outer}
      {before tokens : List Token} {opening : Token} :
      Opened outers before → Waits level outer.lefts tokens →
      (∀ sign ∈ outer.signs, sign.kind.isSign) → opening.kind = .leftParen →
      Opened (outer :: outers) (before ++ tokens ++ outer.signs.reverse ++ [opening])

/-- A place in an expression and the tokens that were read up to it. -/
inductive Place.Holds : Place → List Token → Prop where
  | beforeOperand {level : Level} {lefts : List Waiting} {signs : List Token}
      {outers : List Outer} {before tokens : List Token} :
      Opened outers before → Waits level lefts tokens →
      (∀ sign ∈ signs, sign.kind.isSign) →
      Holds (.beforeOperand lefts signs outers) (before ++ tokens ++ signs.reverse)
  | behindOperand {level : Level} {lefts : List Waiting} {operand : Expr}
      {outers : List Outer} {before tokens after : List Token} :
      Opened outers before → Waits level lefts tokens → operand.Stratified .unary →
      operand.Yields after →
      Holds (.behindOperand lefts operand outers) (before ++ tokens ++ after)

theorem Kind.isSign_iff {kind : Kind} :
    kind.isSign = true ↔ kind = .bang ∨ kind = .minus := by
  cases kind <;> simp [isSign]

/-- A missing right operand is at most as tight as signs. -/
theorem Waits.rank_le (waits : Waits level lefts before) :
    level.rank ≤ Level.unary.rank := by
  cases waits with
  | nothing => decide
  | left _ _ member _ _ _ =>
      have ranked := Level.rank_of_mem_operators member
      omega

/-- Joining operands to the left operands that bind at least as tightly as an
operator keeps the tokens in order and leaves a left operand for that operator. -/
theorem Waits.joinTighter (waits : Waits level lefts before)
    (missing : operand.Stratified level) (loose : operand.Stratified own)
    (yields : operand.Yields tokens) (ranked : own.rank = tightness + 1) :
    ∃ level' before' tokens',
      Waits level' (joinTighter tightness lefts operand).1 before' ∧
      level'.rank ≤ own.rank ∧
      (joinTighter tightness lefts operand).2.Stratified own ∧
      (joinTighter tightness lefts operand).2.Yields tokens' ∧
      before' ++ tokens' = before ++ tokens := by
  induction waits generalizing operand tokens with
  | nothing => exact ⟨_, _, tokens, .nothing, Nat.zero_le _, loose, yields, rfl⟩
  | @left outer inner waiting lefts before leftTokens waits bound member innerRank
      stratified leftYields ih =>
      unfold Reckon.joinTighter
      split
      next tighter =>
        have joined : (waiting.join operand).Stratified inner :=
          .binary member (Nat.le_refl _) stratified missing
        have joinedYields : (waiting.join operand).Yields
            (leftTokens ++ waiting.operator :: tokens) := .binary leftYields yields
        obtain ⟨level', before', tokens', waits', bound', loose', yields', equal⟩ :=
          ih (joined.loosen bound) (joined.loosen (by omega)) joinedYields
        exact ⟨level', before', tokens', waits', bound', loose', yields',
          by simpa using equal⟩
      next looser =>
        have next := (Level.rank_of_mem_operators member).2.2
        exact ⟨_, _, tokens, .left waits bound member innerRank stratified leftYields,
          by omega, loose, yields, rfl⟩

theorem Waits.join (waits : Waits level lefts before) (missing : operand.Stratified level)
    (yields : operand.Yields tokens) :
    (lefts.foldl Waiting.join operand).Stratified .expression ∧
      (lefts.foldl Waiting.join operand).Yields (before ++ tokens) := by
  induction waits generalizing operand tokens with
  | nothing => exact ⟨missing, yields⟩
  | left _ bound member _ stratified leftYields ih =>
      have joined := ih (.binary member bound stratified missing) (.binary leftYields yields)
      simpa [Waiting.join] using joined

theorem applySigns_shape {signs : List Token} (signed : ∀ sign ∈ signs, sign.kind.isSign)
    (stratified : operand.Stratified .unary) (yields : operand.Yields tokens) :
    (applySigns signs operand).Stratified .unary ∧
      (applySigns signs operand).Yields (signs.reverse ++ tokens) := by
  induction signs generalizing operand tokens with
  | nil => exact ⟨stratified, yields⟩
  | cons sign signs ih =>
      have isSign := Kind.isSign_iff.mp (signed sign (by simp))
      have signed := ih (fun other member => signed other (by simp [member]))
        (.unary isSign (Nat.le_refl _) stratified) (.unary yields)
      simpa [applySigns] using signed

/-! ## Soundness -/

/-- Reading one token adds it to what a place holds. -/
theorem Place.Holds.step {place next : Place} (holds : place.Holds consumed)
    (step : place.step token = .ok next) : next.Holds (consumed ++ [token]) := by
  cases holds with
  | @beforeOperand _ lefts signs outers before tokens opened waits signed =>
      simp only [Place.step] at step
      split at step
      next isSign =>
        cases step
        have signed : ∀ sign ∈ token :: signs, sign.kind.isSign :=
          List.forall_mem_cons.mpr ⟨isSign, signed⟩
        simpa using Holds.beforeOperand opened waits signed
      next =>
        split at step
        next isOpening =>
          cases step
          have opened : Opened (⟨lefts, signs⟩ :: outers) _ :=
            .parenthesis opened waits signed isOpening
          simpa using Holds.beforeOperand opened .nothing (List.forall_mem_nil _)
        next =>
          split at step
          next value known =>
            cases step
            have denotes := Token.operand?_eq_some_iff.mp known
            have shape := applySigns_shape signed .literal (.literal denotes)
            simpa using Holds.behindOperand opened waits shape.1 shape.2
          next => cases step
  | @behindOperand _ lefts operand outers before tokens after opened waits stratified
      yields =>
      simp only [Place.step] at step
      split at step
      next tightness known =>
        cases step
        obtain ⟨own, member, ranked⟩ := Level.tightness?_eq_some_iff.mp known
        have bound := (Level.rank_of_mem_operators member).2.1
        obtain ⟨level, before', after', waits', looser, left, leftYields, equal⟩ :=
          waits.joinTighter (stratified.loosen waits.rank_le)
            (stratified.loosen (Nat.le_of_lt bound)) yields ranked
        have waits : Waits own.tighter
            (⟨(joinTighter tightness lefts operand).2, token, tightness⟩ ::
              (joinTighter tightness lefts operand).1) (before' ++ after' ++ [token]) :=
          .left waits' looser member ranked left leftYields
        rw [equal] at waits
        simpa using Holds.beforeOperand opened waits (List.forall_mem_nil _)
      next => cases step
      next outer outers known =>
        split at step
        next isClosing =>
          cases step
          cases opened with
          | parenthesis opened outerWaits signed isOpening =>
              have inner := waits.join (stratified.loosen waits.rank_le) yields
              have shape := applySigns_shape signed (.grouping inner.1)
                (.grouping isOpening isClosing inner.2)
              simpa using Holds.behindOperand opened outerWaits shape.1 shape.2
        next => cases step

/-- An expression that ends at a place is one of all the tokens before the place. -/
theorem Place.Holds.finish {place : Place} (holds : place.Holds consumed)
    (finish : place.finish = .ok expr) : Derives .expression consumed expr := by
  cases holds with
  | beforeOperand => cases finish
  | behindOperand opened waits stratified yields =>
      cases opened with
      | parenthesis => cases finish
      | nothing =>
          cases finish
          have joined := waits.join (stratified.loosen waits.rank_le) yields
          exact derives_iff_stratified_and_yields.mpr (by simpa using joined)

theorem Place.read_nil {place : Place} :
    (place.read stop []).1 = .ok expr ↔ place.finish = .ok expr := by
  rw [Place.read]
  cases place.finish with
  | ok tree =>
      constructor
      · intro read
        cases read
        rfl
      · intro finished
        cases finished
        rfl
  | error expectation =>
      constructor
      · intro read
        cases read
      · intro finished
        cases finished

/-- What is read from a place on is an expression of the tokens before the place and
those behind it. -/
theorem Place.Holds.read {place : Place} (holds : place.Holds consumed)
    (read : (place.read stop tokens).1 = .ok expr) :
    Derives .expression (consumed ++ tokens) expr := by
  induction tokens generalizing place consumed with
  | nil =>
      rw [List.append_nil]
      exact holds.finish (Place.read_nil.mp read)
  | cons token tokens ih =>
      cases step : place.step token with
      | error expectation => simp [Place.read, step] at read
      | ok next =>
          simp only [Place.read, step] at read
          simpa using ih (holds.step step) read

/-! ## Completeness -/

namespace Place

variable {signs : List Token} {outers : List Outer}

theorem step_sign (isSign : token.kind = .bang ∨ token.kind = .minus) :
    (beforeOperand lefts signs outers).step token =
      .ok (.beforeOperand lefts (token :: signs) outers) := by
  simp [step, Kind.isSign_iff.mpr isSign]

theorem step_opening (isOpening : token.kind = .leftParen) :
    (beforeOperand lefts signs outers).step token =
      .ok (.beforeOperand [] [] (⟨lefts, signs⟩ :: outers)) := by
  simp [step, isOpening, Kind.isSign]

theorem step_literal {value : Value} (denotes : token.Denotes value) :
    (beforeOperand lefts signs outers).step token =
      .ok (.behindOperand lefts (applySigns signs (.literal value)) outers) := by
  have known := Token.operand?_eq_some_iff.mpr denotes
  have notOpening : token.kind.isSign = false ∧ token.kind ≠ .leftParen := by
    cases denotes with
    | falseWord kind | trueWord kind | nilWord kind => simp [kind, Kind.isSign]
    | carried kind | bare kind => rcases kind with kind | kind <;> simp [kind, Kind.isSign]
  simp [step, notOpening, known]

theorem step_operator (member : token.kind ∈ own.operators)
    (ranked : own.rank = tightness + 1) :
    (behindOperand lefts operand outers).step token =
      .ok (.beforeOperand
        (⟨(joinTighter tightness lefts operand).2, token, tightness⟩ ::
          (joinTighter tightness lefts operand).1) [] outers) := by
  have known := Level.tightness?_eq_some_iff.mpr ⟨own, member, ranked⟩
  simp [step, known]

theorem step_closing {outer : Outer} (isClosing : token.kind = .rightParen) :
    (behindOperand lefts operand (outer :: outers)).step token =
      .ok (.behindOperand outer.lefts
        (applySigns outer.signs (.grouping (lefts.foldl Waiting.join operand))) outers) := by
  simp [step, isClosing, Kind.tightness?]

theorem read_cons {place next : Place} (step : place.step token = .ok next) :
    read stop place (token :: rest) = read stop next rest := by
  simp [read, step]

end Place

theorem joinTighter_of_looser
    (looser : ∀ waiting ∈ lefts.head?, waiting.tightness < tightness) :
    joinTighter tightness lefts operand = (lefts, operand) := by
  cases lefts with
  | nil => rfl
  | cons waiting lefts =>
      have less := looser waiting (by simp)
      simp [joinTighter, Nat.not_le.mpr less]

@[simp] theorem joinTighter_zero :
    joinTighter 0 lefts operand = ([], lefts.foldl Waiting.join operand) := by
  induction lefts generalizing operand with
  | nil => rfl
  | cons waiting lefts ih => simp [joinTighter, ih]

/-- The tokens of a tree are read to the tree. It may still lie on the stack in
parts, but no operator that may follow a tree of its level can tell. -/
theorem Expr.Yields.read (yields : expr.Yields tokens)
    (stratified : expr.Stratified level) (lefts : List Waiting) (signs : List Token)
    (outers : List Outer) (rest : List Token)
    (unsigned : signs = [] ∨ Level.unary.rank ≤ level.rank)
    (looser : ∀ waiting ∈ lefts.head?, waiting.tightness + 1 < level.rank) :
    ∃ lefts' operand',
      Place.read stop (.beforeOperand lefts signs outers) (tokens ++ rest) =
        Place.read stop (.behindOperand lefts' operand' outers) rest ∧
      ∀ tightness ≤ level.rank - 1,
        joinTighter tightness lefts' operand' =
          joinTighter tightness lefts (applySigns signs expr) := by
  induction yields generalizing level lefts signs outers rest with
  | literal denotes =>
      exact ⟨_, _, Place.read_cons (Place.step_literal denotes), fun _ _ => rfl⟩
  | @grouping opening closing tokens inner isOpening isClosing _ ih =>
      cases stratified with
      | grouping stratified =>
          obtain ⟨lefts', operand', read, same⟩ :=
            ih stratified [] [] (⟨lefts, signs⟩ :: outers) (closing :: rest) (.inl rfl)
              (by simp)
          have closed := same 0 (Nat.zero_le _)
          simp only [joinTighter_zero, Prod.mk.injEq, true_and] at closed
          refine ⟨lefts, applySigns signs (.grouping inner), ?_, fun _ _ => rfl⟩
          calc Place.read stop (.beforeOperand lefts signs outers)
                (opening :: tokens ++ [closing] ++ rest)
            _ = Place.read stop (.beforeOperand [] [] (⟨lefts, signs⟩ :: outers))
                  (tokens ++ closing :: rest) := by
                simpa using Place.read_cons (Place.step_opening isOpening)
            _ = Place.read stop (.behindOperand lefts' operand' (⟨lefts, signs⟩ :: outers))
                  (closing :: rest) := read
            _ = Place.read stop
                  (.behindOperand lefts (applySigns signs (.grouping inner)) outers) rest := by
                rw [Place.read_cons (Place.step_closing isClosing), closed]
                rfl
  | unary _ ih =>
      cases stratified with
      | unary isSign bound operand =>
          obtain ⟨lefts', operand', read, same⟩ :=
            ih operand lefts _ outers rest (.inr (Nat.le_refl _))
              (fun waiting member => Nat.lt_of_lt_of_le (looser waiting member) bound)
          refine ⟨lefts', operand', ?_, fun tightness small => ?_⟩
          · exact (Place.read_cons (Place.step_sign isSign)).trans read
          · exact same tightness (by omega)
  | @binary operator before after left right _ _ leftIH rightIH =>
      cases stratified with
      | @binary _ own _ _ _ member bound leftStratified rightStratified =>
          obtain ⟨positive, small, next⟩ := Level.rank_of_mem_operators member
          obtain ⟨tightness, ranked⟩ : ∃ tightness, own.rank = tightness + 1 :=
            ⟨own.rank - 1, by omega⟩
          obtain rfl : signs = [] := unsigned.resolve_right (by omega)
          obtain ⟨lefts₁, operand₁, read₁, same₁⟩ :=
            leftIH leftStratified lefts [] outers (operator :: (after ++ rest)) (.inl rfl)
              (fun waiting member => Nat.lt_of_lt_of_le (looser waiting member) bound)
          have joined : joinTighter tightness lefts₁ operand₁ = (lefts, left) := by
            rw [same₁ tightness (by omega)]
            exact joinTighter_of_looser fun waiting member => by
              have := looser waiting member
              omega
          obtain ⟨lefts₂, operand₂, read₂, same₂⟩ :=
            rightIH rightStratified (⟨left, operator, tightness⟩ :: lefts) [] outers rest
              (.inl rfl) (by simp; omega)
          refine ⟨lefts₂, operand₂, ?_, fun other small => ?_⟩
          · calc Place.read stop (.beforeOperand lefts [] outers)
                  (before ++ operator :: after ++ rest)
              _ = Place.read stop (.behindOperand lefts₁ operand₁ outers)
                    (operator :: (after ++ rest)) := by simpa using read₁
              _ = Place.read stop
                    (.beforeOperand (⟨left, operator, tightness⟩ :: lefts) [] outers)
                    (after ++ rest) := by
                  rw [Place.read_cons (Place.step_operator member ranked), joined]
              _ = Place.read stop (.behindOperand lefts₂ operand₂ outers) rest := read₂
          · rw [same₂ other (by omega)]
            simp only [applySigns, List.foldl_nil, joinTighter]
            rw [if_pos (by omega)]
            rfl

/-! ## Where reading stops -/

theorem Place.read_eq_ok {place : Place} {remaining : List Token}
    (read : place.read stop tokens = (.ok expr, remaining)) : remaining = [] := by
  induction tokens generalizing place with
  | nil =>
      rw [Place.read] at read
      exact (congrArg Prod.snd read).symm
  | cons token tokens ih =>
      cases step : place.step token with
      | error expectation =>
          rw [Place.read, step] at read
          cases read
      | ok next =>
          rw [Place.read, step] at read
          exact ih read

/-- The token that is reported is the first of those that are left, or the mark of the
end if none is. -/
theorem Place.read_eq_error {place : Place} {stop : Token} {tokens remaining : List Token}
    {error : SyntaxError} (read : place.read stop tokens = (.error error, remaining)) :
    ∃ consumed, tokens = consumed ++ remaining ∧ remaining.head?.getD stop = error.token := by
  induction tokens generalizing place with
  | nil =>
      rw [Place.read] at read
      cases finished : place.finish with
      | ok expr =>
          rw [finished] at read
          cases read
      | error expectation =>
          rw [finished] at read
          cases read
          exact ⟨[], rfl, rfl⟩
  | cons token tokens ih =>
      cases step : place.step token with
      | error expectation =>
          rw [Place.read, step] at read
          cases read
          exact ⟨[], rfl, rfl⟩
      | ok next =>
          rw [Place.read, step] at read
          obtain ⟨consumed, rfl, head⟩ := ih read
          exact ⟨token :: consumed, rfl, head⟩

/-- The tokens before the first mark of an end are parsed up to that mark. -/
theorem Parser.ofTokens_append {words : List Token}
    (more : ∀ token ∈ words, token.kind ≠ .eof) (ends : stop.kind = .eof)
    (unread : List Token) : Parser.ofTokens (words ++ stop :: unread) = ⟨words, stop⟩ := by
  have others : ∀ token ∈ words, (token.kind != .eof) = true := by simpa using more
  have noneBefore : words.find? (·.kind == .eof) = none := by simpa using more
  simp [ofTokens, List.takeWhile_append_of_pos others, noneBefore, ends]

/-! ## Trees and derivations -/

/-- The tokens of a derivation are read to its tree, and no others are. -/
theorem Place.read_eq_ok_iff (stop : Token) :
    (Place.read stop (.beforeOperand [] [] []) tokens).1 = .ok expr ↔
      Derives .expression tokens expr := by
  constructor
  · intro read
    have holds : Place.Holds (.beforeOperand [] [] []) [] :=
      .beforeOperand .nothing .nothing (List.forall_mem_nil _)
    exact holds.read read
  · intro derives
    have shape := derives.shape
    obtain ⟨lefts, operand, read, same⟩ :=
      shape.2.read shape.1 [] [] [] [] (.inl rfl) (by simp)
    have closed := same 0 (Nat.zero_le _)
    simp only [joinTighter_zero, Prod.mk.injEq, true_and] at closed
    rw [List.append_nil] at read
    rw [read, Place.read_nil, Place.finish, closed]
    rfl

/-- No tokens have two trees. -/
theorem Derives.unique {left right : Expr} (first : Derives level tokens left)
    (second : Derives level tokens right) : left = right := by
  have bottom : Level.expression.rank ≤ level.rank := Nat.zero_le _
  have read : ∀ {expr}, Derives level tokens expr →
      (Place.read (Token.endAt 1) (.beforeOperand [] [] []) tokens).1 = .ok expr :=
    fun derives => (Place.read_eq_ok_iff _).mpr (derives.loosen bottom)
  simpa using (read first).symm.trans (read second)

/-- Tokens are read to the tree of their derivation up to the first mark of an end. -/
theorem Session.parseTokens_fst_eq_some_iff (log : Log) (tokens : List Token) (expr : Expr) :
    (parseTokens log tokens).1 = some expr ↔
      Derives .expression (tokens.takeWhile (·.kind != .eof)) expr := by
  rw [← Place.read_eq_ok_iff (Parser.ofTokens tokens).stop]
  simp only [parseTokens, Parser.parse, Parser.ofTokens]
  split
  next tree read => simp [read]
  next error read => simp [read]

/-- Nothing is reported about tokens that are read to an expression. -/
theorem Session.parseTokens_of_derives {log : Log} {tokens : List Token} {expr : Expr}
    (derives : Derives .expression (tokens.takeWhile (·.kind != .eof)) expr) :
    parseTokens log tokens = (some expr, log) := by
  have read := (parseTokens_fst_eq_some_iff log tokens expr).mpr derives
  unfold parseTokens at read ⊢
  split at read
  next tree parsed =>
      cases read
      rfl
  next error parsed => cases read

/-- Tokens are read to an expression if and only if those before the first mark of
an end are a derivation of the grammar with that tree. This is to say that the tree
respects the levels of its operators and yields these tokens in their order. So the
grammar is unambiguous. -/
theorem Session.parseTokens_eq_some_iff_derives (log : Log) (tokens : List Token)
    (expr : Expr) :
    let words := tokens.takeWhile (·.kind != .eof)
    ((parseTokens log tokens).1 = some expr ↔ Derives .expression words expr) ∧
      (Derives .expression words expr ↔
        expr.Stratified .expression ∧ expr.Yields words) ∧
      ∀ (level : Level) (written : List Token) (left right : Expr),
        Derives level written left → Derives level written right → left = right := by
  constructor
  · exact parseTokens_fst_eq_some_iff log tokens expr
  · constructor
    · exact derives_iff_stratified_and_yields
    · intro level written left right first second
      exact first.unique second

end Reckon
