import Reckon.Proofs.Decimal.ReadBack
import Reckon.Proofs.Expr.Fault
import Reckon.Proofs.Expr.Reading
import Reckon.Proofs.Token.Spaced

/-!
# Expressions in infix form

A tree is written with its operators between their operands, and with parentheses
where the levels of the operators would otherwise give another tree. This module
proves that nothing of a tree is lost in its text: reading the text gives the tree
back up to parentheses and lines, and running it does what the tree evaluates to.
-/

namespace Reckon

/-! ## Writing a tree -/

/-- The level of the binary operators of a kind; the loosest for any other kind. -/
def Kind.level : Kind → Level
  | .bangEqual | .equalEqual => .equality
  | .greater | .greaterEqual | .less | .lessEqual => .comparison
  | .minus | .plus => .term
  | .slash | .star => .factor
  | _ => .expression

theorem Kind.level_of_mem {kind : Kind} {level : Level} (member : kind ∈ level.operators) :
    kind.level = level := by
  cases level <;>
    simp only [Level.operators, List.mem_cons, List.not_mem_nil, or_false] at member
  all_goals rcases member with rfl | rfl | rfl | rfl <;> rfl

/-- The token that a value is written as. A text is put between quotes. -/
def Value.token : Value → Token
  | .nil => ⟨.keyword .nilWord, "nil", none, 0⟩
  | .boolean true => ⟨.keyword .trueWord, "true", none, 0⟩
  | .boolean false => ⟨.keyword .falseWord, "false", none, 0⟩
  | .number double => ⟨.number, (Value.number double).toText, some (.number double), 0⟩
  | .text content => ⟨.string, "\"" ++ content ++ "\"", some (.text content), 0⟩

/-- Tokens between parentheses. -/
def Token.enclose (tokens : List Token) : List Token :=
  ⟨.leftParen, "(", none, 0⟩ :: tokens ++ [⟨.rightParen, ")", none, 0⟩]

/-- The tokens of an operand of the level `own` at a position for trees of a level.
They are put in parentheses exactly if the operand binds less tightly. -/
def Token.place (position own : Level) (tokens : List Token) : List Token :=
  if own.rank < position.rank then enclose tokens else tokens

namespace Expr

def level : Expr → Level
  | .literal _ | .grouping _ => .primary
  | .unary _ _ => .unary
  | .binary operator _ _ => operator.kind.level

def tokens : Expr → List Token
  | .literal value => [value.token]
  | .grouping inner => Token.enclose inner.tokens
  | .unary operator operand => operator :: Token.place .unary operand.level operand.tokens
  | .binary operator left right =>
      Token.place operator.kind.level left.level left.tokens ++
        operator :: Token.place operator.kind.level.tighter right.level right.tokens

def render (expr : Expr) : String :=
  Token.spell expr.tokens

example :
    (Expr.binary ⟨.minus, "-", none, 1⟩
      (.binary ⟨.minus, "-", none, 1⟩ (.literal .nil) (.literal (.text "a")))
      (.binary ⟨.plus, "+", none, 1⟩ (.literal (.boolean true)) (.literal .nil))).render =
      "nil - \"a\" - ( true + nil )" := by
  decide

end Expr

/-! ## What can be written -/

/-- A value that can be written as a literal. There are no negative numbers among the
literals, and no text has a quote in it. -/
inductive Value.Writable : Value → Prop where
  | nil : Writable .nil
  | boolean {truth : Bool} : Writable (.boolean truth)
  | number {double : Float} : double.isFinite → Binary64.isNegative double = false →
      Writable (.number double)
  | text {content : String} : '"' ∉ content.toList → Writable (.text content)

/-- An operator as it is always written. -/
def Token.Usual (operator : Token) : Prop :=
  operator.kind.spelling? = some operator.lexeme ∧ operator.literal = none

/-- A tree of operators as they are always written and of values that can be. -/
inductive Expr.Writable : Expr → Prop where
  | literal {value : Value} : value.Writable → Writable (.literal value)
  | grouping {inner : Expr} : Writable inner → Writable (.grouping inner)
  | unary {operator : Token} {operand : Expr} :
      operator.kind ∈ [.bang, .minus] → operator.Usual → Writable operand →
      Writable (.unary operator operand)
  | binary {operator : Token} {left right : Expr} :
      operator.kind ∈ [.equalEqual, .bangEqual, .greater, .greaterEqual, .less, .lessEqual,
        .plus, .minus, .star, .slash] →
      operator.Usual → Writable left → Writable right →
      Writable (.binary operator left right)

theorem Value.Writable.token_wellFormed {value : Value} (writable : value.Writable) :
    value.token.WellFormed := by
  cases writable with
  | nil => exact Lexeme.fixed rfl
  | @boolean truth => cases truth <;> exact Lexeme.fixed rfl
  | number finite unsigned => exact Value.lexeme_number finite unsigned
  | @text content unquoted =>
      have lexeme := Lexeme.string unquoted
      rw [String.ofList_toList] at lexeme
      simpa [Token.WellFormed, Value.token] using lexeme

theorem Token.Usual.wellFormed {operator : Token} (usual : operator.Usual) :
    operator.WellFormed := by
  rw [Token.WellFormed, usual.2]
  exact Lexeme.fixed usual.1

theorem Token.wellFormed_enclose {tokens : List Token}
    (wellFormed : ∀ token ∈ tokens, token.WellFormed) :
    ∀ token ∈ enclose tokens, token.WellFormed := by
  intro token member
  rcases List.mem_append.mp member with member | closing
  · rcases List.mem_cons.mp member with rfl | inner
    · exact Lexeme.fixed rfl
    · exact wellFormed token inner
  · rw [List.mem_singleton.mp closing]
    exact Lexeme.fixed rfl

theorem Token.wellFormed_place {position own : Level} {tokens : List Token}
    (wellFormed : ∀ token ∈ tokens, token.WellFormed) :
    ∀ token ∈ place position own tokens, token.WellFormed := by
  unfold place
  split
  · exact wellFormed_enclose wellFormed
  · exact wellFormed

theorem Expr.Writable.tokens_wellFormed {expr : Expr} (writable : expr.Writable) :
    ∀ token ∈ expr.tokens, token.WellFormed := by
  induction writable with
  | literal value =>
      intro token member
      rw [List.mem_singleton.mp member]
      exact value.token_wellFormed
  | grouping _ ih => exact Token.wellFormed_enclose ih
  | unary _ usual _ ih =>
      rw [tokens, List.forall_mem_cons]
      exact ⟨usual.wellFormed, Token.wellFormed_place ih⟩
  | binary _ usual _ _ leftIH rightIH =>
      rw [tokens, List.forall_mem_append, List.forall_mem_cons]
      exact ⟨Token.wellFormed_place leftIH, usual.wellFormed, Token.wellFormed_place rightIH⟩

theorem Expr.Writable.wellPlaced {expr : Expr} (writable : expr.Writable) :
    expr.WellPlaced := by
  induction writable with
  | literal => trivial
  | grouping _ ih => exact ih
  | unary known _ _ ih =>
      simp only [List.mem_cons, List.not_mem_nil, or_false] at known
      exact ⟨known, ih⟩
  | @binary operator _ _ known _ _ _ leftIH rightIH =>
      refine ⟨⟨operator.kind.level, ?_⟩, leftIH, rightIH⟩
      generalize operator.kind = kind at known
      simp only [List.mem_cons, List.not_mem_nil, or_false] at known
      rcases known with rfl | rfl | rfl | rfl | rfl | rfl | rfl | rfl | rfl | rfl <;> decide

theorem Expr.writable_ungrouped_iff {expr : Expr} :
    expr.ungrouped.Writable ↔ expr.Writable := by
  induction expr with
  | literal value => exact Iff.rfl
  | grouping inner ih =>
      constructor
      · intro writable
        exact .grouping (ih.mp writable)
      · intro writable
        cases writable with
        | grouping inner => exact ih.mpr inner
  | unary operator operand ih =>
      constructor
      · intro writable
        cases writable with
        | unary known usual operand => exact .unary known usual (ih.mp operand)
      · intro writable
        cases writable with
        | unary known usual operand => exact .unary known usual (ih.mpr operand)
  | binary operator left right leftIH rightIH =>
      constructor
      · intro writable
        cases writable with
        | binary known usual left right =>
            exact .binary known usual (leftIH.mp left) (rightIH.mp right)
      · intro writable
        cases writable with
        | binary known usual left right =>
            exact .binary known usual (leftIH.mpr left) (rightIH.mpr right)

theorem Expr.Writable.regrouped {expr other : Expr} (writable : expr.Writable)
    (same : other.ungrouped = expr.ungrouped) : other.Writable := by
  rw [← writable_ungrouped_iff, same, writable_ungrouped_iff]
  exact writable

/-! ## The tree that the tokens derive -/

theorem Value.token_denotes (value : Value) : value.token.Denotes value := by
  cases value with
  | nil => exact .nilWord rfl
  | boolean truth =>
      cases truth with
      | false => exact .falseWord rfl
      | true => exact .trueWord rfl
  | number double => exact .carried (.inl rfl) rfl
  | text content => exact .carried (.inr rfl) rfl

namespace Expr

/-- An operand at a position for trees of a level, in parentheses if it binds less
tightly. -/
def place (position own : Level) (expr : Expr) : Expr :=
  if own.rank < position.rank then .grouping expr else expr

/-- A tree with the parentheses that it is written with. -/
def bracketed : Expr → Expr
  | .literal value => .literal value
  | .grouping inner => .grouping inner.bracketed
  | .unary operator operand =>
      .unary operator (place .unary operand.level operand.bracketed)
  | .binary operator left right =>
      .binary operator (place operator.kind.level left.level left.bracketed)
        (place operator.kind.level.tighter right.level right.bracketed)

@[simp] theorem ungrouped_place (position own : Level) (expr : Expr) :
    (place position own expr).ungrouped = expr.ungrouped := by
  unfold place
  split <;> rfl

@[simp] theorem ungrouped_ungrouped (expr : Expr) : expr.ungrouped.ungrouped = expr.ungrouped := by
  induction expr with
  | literal value => rfl
  | grouping inner ih => exact ih
  | unary operator operand ih => simp only [ungrouped, ih]
  | binary operator left right leftIH rightIH => simp only [ungrouped, leftIH, rightIH]

/-- Parentheses are all that is added. -/
@[simp] theorem ungrouped_bracketed (expr : Expr) : expr.bracketed.ungrouped = expr.ungrouped := by
  induction expr with
  | literal value => rfl
  | grouping inner ih => exact ih
  | unary operator operand ih => simp only [bracketed, ungrouped, ungrouped_place, ih]
  | binary operator left right leftIH rightIH =>
      simp only [bracketed, ungrouped, ungrouped_place, leftIH, rightIH]

theorem Yields.enclose {expr : Expr} {tokens : List Token} (yields : expr.Yields tokens) :
    (Expr.grouping expr).Yields (Token.enclose tokens) :=
  .grouping rfl rfl yields

/-- What is put at a position is of the level that the position is for. -/
theorem place_shape (position : Level) {own : Level} {expr : Expr} {tokens : List Token}
    (stratified : expr.Stratified own) (yields : expr.Yields tokens) :
    (place position own expr).Stratified position ∧
      (place position own expr).Yields (Token.place position own tokens) := by
  unfold place Token.place
  split
  next =>
      have loose : expr.Stratified .expression := stratified.loosen (Nat.zero_le _)
      exact ⟨.grouping loose, yields.enclose⟩
  next tight => exact ⟨stratified.loosen (Nat.le_of_not_lt tight), yields⟩

/-- The tree with its parentheses is derived from the tokens that it is written as. -/
theorem WellPlaced.bracketed_shape {expr : Expr} (placed : expr.WellPlaced) :
    expr.bracketed.Stratified expr.level ∧ expr.bracketed.Yields expr.tokens := by
  induction expr with
  | literal value => exact ⟨.literal, .literal value.token_denotes⟩
  | grouping inner ih =>
      obtain ⟨stratified, yields⟩ := ih placed
      exact ⟨.grouping (stratified.loosen (Nat.zero_le _)), yields.enclose⟩
  | unary operator operand ih =>
      obtain ⟨sign, placed⟩ := placed
      obtain ⟨stratified, yields⟩ := ih placed
      have operandShape := place_shape .unary stratified yields
      exact ⟨.unary sign (Nat.le_refl _) operandShape.1, .unary operandShape.2⟩
  | binary operator left right leftIH rightIH =>
      obtain ⟨⟨own, member⟩, leftPlaced, rightPlaced⟩ := placed
      have same := Kind.level_of_mem member
      rw [← same] at member
      obtain ⟨leftStratified, leftYields⟩ := leftIH leftPlaced
      obtain ⟨rightStratified, rightYields⟩ := rightIH rightPlaced
      have leftShape := place_shape operator.kind.level leftStratified leftYields
      have rightShape := place_shape operator.kind.level.tighter rightStratified
        rightYields
      constructor
      · exact .binary member (Nat.le_refl _) leftShape.1 rightShape.1
      · exact .binary leftShape.2 rightShape.2

end Expr

/-! ## Tokens on other lines -/

namespace Token

variable {token other : Token}

theorem kind_of_unlined (same : other.unlined = token.unlined) : other.kind = token.kind := by
  have kinds := congrArg kind same
  exact kinds

theorem literal_of_unlined (same : other.unlined = token.unlined) :
    other.literal = token.literal := by
  have literals := congrArg literal same
  exact literals

theorem Denotes.relined {value : Value} (denotes : token.Denotes value)
    (same : other.unlined = token.unlined) : other.Denotes value := by
  rw [← operand?_eq_some_iff] at denotes ⊢
  rw [← denotes, operand?, operand?, kind_of_unlined same, literal_of_unlined same]

end Token

namespace Expr

/-- On other lines the tokens of a tree are those of a tree that differs in lines
only. -/
theorem Yields.relined {expr : Expr} {tokens : List Token} (yields : expr.Yields tokens) :
    ∀ {moved : List Token}, moved.map Token.unlined = tokens.map Token.unlined →
      ∃ other : Expr, other.Yields moved ∧ other.unlined = expr.unlined := by
  induction yields with
  | literal denotes =>
      intro moved same
      obtain ⟨token, rfl, tokenSame⟩ := List.map_eq_singleton_iff.mp same
      exact ⟨_, .literal (denotes.relined tokenSame), rfl⟩
  | grouping opening closing _ ih =>
      intro moved same
      rw [List.map_append, List.map_cons, List.map_singleton] at same
      obtain ⟨front, back, rfl, frontSame, backSame⟩ := List.map_eq_append_iff.mp same
      obtain ⟨first, inner, rfl, firstSame, innerSame⟩ := List.map_eq_cons_iff.mp frontSame
      obtain ⟨last, rfl, lastSame⟩ := List.map_eq_singleton_iff.mp backSame
      obtain ⟨other, yields, equal⟩ := ih innerSame
      have firstKind := (Token.kind_of_unlined firstSame).trans opening
      have lastKind := (Token.kind_of_unlined lastSame).trans closing
      exact ⟨_, .grouping firstKind lastKind yields, congrArg Expr.grouping equal⟩
  | unary _ ih =>
      intro moved same
      obtain ⟨first, rest, rfl, firstSame, restSame⟩ := List.map_eq_cons_iff.mp same
      obtain ⟨other, yields, equal⟩ := ih restSame
      refine ⟨_, .unary yields, ?_⟩
      rw [unlined, unlined, firstSame, equal]
  | binary _ _ leftIH rightIH =>
      intro moved same
      rw [List.map_append, List.map_cons] at same
      obtain ⟨front, back, rfl, frontSame, backSame⟩ := List.map_eq_append_iff.mp same
      obtain ⟨first, rest, rfl, firstSame, restSame⟩ := List.map_eq_cons_iff.mp backSame
      obtain ⟨left, leftYields, leftEqual⟩ := leftIH frontSame
      obtain ⟨right, rightYields, rightEqual⟩ := rightIH restSame
      refine ⟨_, .binary leftYields rightYields, ?_⟩
      rw [unlined, unlined, firstSame, leftEqual, rightEqual]

theorem Stratified.relined {level : Level} {expr : Expr} (stratified : expr.Stratified level) :
    ∀ {other : Expr}, other.unlined = expr.unlined → other.Stratified level := by
  induction stratified with
  | literal =>
      intro other same
      cases other with
      | literal value => exact .literal
      | _ => cases same
  | grouping _ ih =>
      intro other same
      cases other with
      | grouping inner =>
          injection same with same
          exact .grouping (ih same)
      | _ => cases same
  | unary sign bound _ ih =>
      intro other same
      cases other with
      | unary operator operand =>
          injection same with operatorSame operandSame
          rw [← Token.kind_of_unlined operatorSame] at sign
          exact .unary sign bound (ih operandSame)
      | _ => cases same
  | binary member bound _ _ leftIH rightIH =>
      intro other same
      cases other with
      | binary operator left right =>
          injection same with operatorSame leftSame rightSame
          rw [← Token.kind_of_unlined operatorSame] at member
          exact .binary member bound (leftIH leftSame) (rightIH rightSame)
      | _ => cases same

@[simp] theorem ungrouped_unlined (expr : Expr) :
    expr.unlined.ungrouped = expr.ungrouped.unlined := by
  induction expr with
  | literal value => rfl
  | grouping inner ih => exact ih
  | unary operator operand ih => simp only [ungrouped, unlined, ih]
  | binary operator left right leftIH rightIH =>
      simp only [ungrouped, unlined, leftIH, rightIH]

end Expr

/-! ## Reading and running the text -/

/-- What becomes of a tree that is written as a text. The text is read without a
complaint, to a tree that differs in parentheses and lines only. Running it gives the
value of the tree in its written form, or else a fault with the same message at the
same operator. -/
def Expr.ReadsBack (expr : Expr) (text : String) : Prop :=
  ∃ parsed : Expr, Session.parse .empty text = (some parsed, .empty) ∧
    parsed.ungrouped.unlined = expr.ungrouped.unlined ∧
    match expr.eval with
    | .ok value => Session.run .empty text = .ok (some value.toText, .empty)
    | .error (.runtime error) =>
        ∃ path, ∃ found : RuntimeError,
          expr.locate = .error ⟨path, .runtime error⟩ ∧
          parsed.locate = .error ⟨path, .runtime found⟩ ∧
          expr.operatorAt? path = some error.operator ∧
          parsed.operatorAt? path = some found.operator ∧
          found.operator.unlined = error.operator.unlined ∧
          found.diagnostic.message = error.diagnostic.message ∧
          Session.run .empty text = .ok (none, Log.empty.report found.diagnostic)
    | .error (.misplaced _) => False

/-- A text of the tokens of a tree is parsed to this tree, with the operators on the lines
of the text. -/
theorem Session.parse_of_tokens {source : String} {expr : Expr} {tokens : List Token}
    (scanned : (Scan.ofSource source).tokens.map Token.unlined =
      tokens.map Token.unlined ++ [Token.endAt 0])
    (silent : (Scan.ofSource source).diagnostics = [])
    (wellFormed : ∀ token ∈ tokens, token.WellFormed)
    (stratified : expr.Stratified .expression) (yields : expr.Yields tokens) :
    ∃ parsed : Expr, Session.parse .empty source = (some parsed, .empty) ∧
      parsed.unlined = expr.unlined ∧ parsed.WellPlaced := by
  obtain ⟨moved, last, split, movedSame, lastSame⟩ := List.map_eq_append_iff.mp scanned
  obtain ⟨stop, rfl, stopSame⟩ := List.map_eq_singleton_iff.mp lastSame
  have more : ∀ token ∈ moved, token.kind ≠ .eof := by
    intro token member
    have image : token.unlined ∈ tokens.map Token.unlined :=
      movedSame ▸ List.mem_map_of_mem member
    obtain ⟨original, member, same⟩ := List.mem_map.mp image
    rw [← Token.kind_of_unlined same]
    exact (wellFormed original member).kind_ne_eof
  have ends : stop.kind = .eof := by
    have atEnd : stop.unlined = (Token.endAt 0).unlined := stopSame
    rw [Token.kind_of_unlined atEnd]
    rfl
  have words : (Scan.ofSource source).tokens.takeWhile (·.kind != .eof) = moved := by
    rw [split]
    exact congrArg Parser.remaining (Parser.ofTokens_append more ends [])
  obtain ⟨parsed, yieldsMoved, same⟩ := yields.relined movedSame
  have stratifiedParsed := stratified.relined same
  refine ⟨parsed, ?_, same, stratifiedParsed.wellPlaced⟩
  simp only [parse, silent, Log.reportAll, List.foldl_nil]
  apply parseTokens_of_derives
  rw [words]
  exact stratifiedParsed.derives yieldsMoved

/-- What is read of a tree decides what running its text does. -/
theorem Expr.WellPlaced.readsBack {expr parsed : Expr} {text : String}
    (placed : expr.WellPlaced) (parsedPlaced : parsed.WellPlaced)
    (read : Session.parse .empty text = (some parsed, .empty))
    (alike : parsed.ungrouped.unlined = expr.ungrouped.unlined) : expr.ReadsBack text := by
  refine ⟨parsed, read, alike, ?_⟩
  have run : Session.run .empty text = Session.interpret .empty parsed := by
    rw [Session.run, read]
  have same := locate_eq_of_alike alike
  rw [run, Session.interpret, eval_eq_locate, eval_eq_locate]
  cases located : expr.locate with
  | ok value =>
      rw [located] at same
      cases parsedLocated : parsed.locate with
      | ok other =>
          rw [parsedLocated] at same
          cases same
          rfl
      | error fault =>
          rw [parsedLocated] at same
          cases same
  | error fault =>
      rw [located] at same
      cases parsedLocated : parsed.locate with
      | ok value =>
          rw [parsedLocated] at same
          cases same
      | error found =>
          rw [parsedLocated] at same
          obtain ⟨error, cause, operator⟩ := placed.locate_error located
          obtain ⟨foundError, foundCause, foundOperator⟩ :=
            parsedPlaced.locate_error parsedLocated
          obtain ⟨path, _⟩ := fault
          obtain ⟨foundPath, _⟩ := found
          subst cause foundCause
          injection same with same
          injection same with samePath sameError
          injection sameError with sameError
          injection sameError with sameType sameOperator
          subst samePath
          have sameMessage := congrArg TypeError.message sameType
          exact ⟨foundPath, foundError, rfl, rfl, operator, foundOperator, sameOperator,
            sameMessage, rfl⟩

/-- A tree is read back from a text of the tokens of any tree that differs in parentheses
only. -/
theorem Expr.Writable.readsBack_of_tokens {expr written : Expr} {text : String}
    (writable : expr.Writable) (same : written.ungrouped = expr.ungrouped)
    (scanned : (Scan.ofSource text).tokens.map Token.unlined =
      written.tokens.map Token.unlined ++ [Token.endAt 0])
    (silent : (Scan.ofSource text).diagnostics = []) : expr.ReadsBack text := by
  have writtenWritable := writable.regrouped same
  obtain ⟨stratified, yields⟩ := writtenWritable.wellPlaced.bracketed_shape
  obtain ⟨parsed, read, parsedSame, parsedPlaced⟩ :=
    Session.parse_of_tokens scanned silent writtenWritable.tokens_wellFormed
      (stratified.loosen (Nat.zero_le _)) yields
  apply writable.wellPlaced.readsBack parsedPlaced read
  calc
    parsed.ungrouped.unlined
      = parsed.unlined.ungrouped := (ungrouped_unlined parsed).symm
    _ = written.bracketed.unlined.ungrouped := by rw [parsedSame]
    _ = written.bracketed.ungrouped.unlined := ungrouped_unlined written.bracketed
    _ = expr.ungrouped.unlined := by rw [ungrouped_bracketed, same]

/-- A tree is read back from the infix form of any tree that differs in parentheses only. -/
theorem Expr.Writable.readsBack {expr written : Expr} (writable : expr.Writable)
    (same : written.ungrouped = expr.ungrouped) : expr.ReadsBack written.render := by
  have writtenWritable := writable.regrouped same
  obtain ⟨scanned, silent⟩ := Scan.ofSource_spell writtenWritable.tokens_wellFormed
  exact writable.readsBack_of_tokens same scanned silent

/-- A tree is read back from its infix form, be it with all parentheses of the tree or
with those only that the levels of its operators require. -/
theorem Expr.readsBack_render {expr : Expr} (writable : expr.Writable) :
    expr.ReadsBack expr.render ∧ expr.ReadsBack expr.ungrouped.render := by
  constructor
  · exact writable.readsBack rfl
  · exact writable.readsBack (ungrouped_ungrouped expr)

/-- A difference within a difference, with a text where a number is needed. -/
theorem Expr.readsBack_render_difference :
    let one : Expr := .literal (.number (.ofBits 0x3FF0000000000000))
    let minus : Token := ⟨.minus, "-", none, 3⟩
    let expr : Expr := .binary minus one
      (.grouping (.binary minus one (.unary minus (.literal (.text "1")))))
    expr.Writable ∧ expr.ReadsBack expr.render ∧ expr.ReadsBack expr.ungrouped.render := by
  intro one minus expr
  have oneWritable : one.Writable := .literal (.number (by decide) (by decide))
  have usual : minus.Usual := ⟨rfl, rfl⟩
  have signed : (Expr.unary minus (.literal (.text "1"))).Writable :=
    .unary (by decide) usual (.literal (.text (by decide)))
  have writable : expr.Writable :=
    .binary (by decide) usual oneWritable
      (.grouping (.binary (by decide) usual oneWritable signed))
  exact ⟨writable, readsBack_render writable⟩

end Reckon
