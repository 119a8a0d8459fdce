import Reckon.Session

/-!
# The grammar of expressions

The grammar says which tokens an expression is written with. Each level but the
last reads its operands at the next tighter level and joins them from the left;
signs and groups recur. This module states the grammar twice, as derivations
rule by rule and as a condition on the shape of a tree and the tokens it stands
for, and proves that both admit the same trees.
-/

namespace Reckon

/-- The levels of the grammar, the loosest first. -/
inductive Level where
  | expression | equality | comparison | term | factor | unary | primary
  deriving DecidableEq, Repr

namespace Level

/-- The place of a level in their order. -/
def rank : Level → Nat
  | .expression => 0
  | .equality => 1
  | .comparison => 2
  | .term => 3
  | .factor => 4
  | .unary => 5
  | .primary => 6

/-- The level that a level takes its operands from. -/
def tighter : Level → Level
  | .expression => .equality
  | .equality => .comparison
  | .comparison => .term
  | .term => .factor
  | .factor => .unary
  | .unary | .primary => .primary

/-- The binary operators of a level. -/
def operators : Level → List Kind
  | .equality => [.bangEqual, .equalEqual]
  | .comparison => [.greater, .greaterEqual, .less, .lessEqual]
  | .term => [.minus, .plus]
  | .factor => [.slash, .star]
  | .expression | .unary | .primary => []

theorem rank_injective {left right : Level} (equal : left.rank = right.rank) :
    left = right := by
  cases left <;> cases right <;> first | rfl | cases equal

theorem rank_tighter {level : Level} (notPrimary : level ≠ .primary) :
    level.tighter.rank = level.rank + 1 := by
  cases level <;> first | rfl | contradiction

theorem rank_le_tighter (level : Level) : level.rank ≤ level.tighter.rank := by
  cases level <;> decide

/-- The levels with operators lie between the first level and that of signs. -/
theorem rank_of_mem_operators {level : Level} {kind : Kind}
    (member : kind ∈ level.operators) :
    0 < level.rank ∧ level.rank < Level.unary.rank ∧
      level.tighter.rank = level.rank + 1 := by
  cases level <;> simp_all [operators, rank, tighter]

/-- The parser's numbers for operators are the places of their levels. -/
theorem tightness?_eq_some_iff {kind : Kind} {tightness : Nat} :
    kind.tightness? = some tightness ↔
      ∃ level : Level, kind ∈ level.operators ∧ level.rank = tightness + 1 := by
  constructor
  · intro known
    cases kind <;> simp only [Kind.tightness?, reduceCtorEq, Option.some.injEq] at known <;>
      subst tightness
    case bangEqual | equalEqual => exact ⟨.equality, by decide, rfl⟩
    case greater | greaterEqual | less | lessEqual => exact ⟨.comparison, by decide, rfl⟩
    case minus | plus => exact ⟨.term, by decide, rfl⟩
    case slash | star => exact ⟨.factor, by decide, rfl⟩
  · rintro ⟨level, member, ranked⟩
    cases level <;>
      simp only [operators, List.mem_cons, List.not_mem_nil, or_false] at member <;>
      simp only [rank, Nat.succ.injEq] at ranked <;> subst tightness
    all_goals rcases member with rfl | rfl | rfl | rfl <;> rfl

end Level

/-- The value that a token is written for. A number or a string stands for the
literal that it carries, and for `nil` if it carries none. -/
inductive Token.Denotes (token : Token) : Value → Prop where
  | falseWord : token.kind = .keyword .falseWord → Denotes token (.boolean false)
  | trueWord : token.kind = .keyword .trueWord → Denotes token (.boolean true)
  | nilWord : token.kind = .keyword .nilWord → Denotes token .nil
  | carried {value : Value} : token.kind = .number ∨ token.kind = .string →
      token.literal = some value → Denotes token value
  | bare : token.kind = .number ∨ token.kind = .string →
      token.literal = none → Denotes token .nil

theorem Token.operand?_eq_some_iff {token : Token} {value : Value} :
    token.operand? = some value ↔ token.Denotes value := by
  constructor
  · intro known
    unfold operand? at known
    split at known <;> simp only [Option.some.injEq, reduceCtorEq] at known <;> subst value
    case h_1 kind => exact .falseWord kind
    case h_2 kind => exact .trueWord kind
    case h_3 kind => exact .nilWord kind
    all_goals
      rename_i kind
      cases carried : token.literal with
      | none => exact .bare (by simp [kind]) carried
      | some value => exact .carried (by simp [kind]) carried
  · intro denotes
    cases denotes with
    | falseWord kind | trueWord kind | nilWord kind => simp [operand?, kind]
    | carried kind literal | bare kind literal =>
        rcases kind with kind | kind <;> simp [operand?, kind, literal]

/-! ## Derivations -/

mutual

/-- The rules of the grammar, with the tree that a derivation builds:

    expression → equality
    equality   → comparison ( ( "!=" | "==" ) comparison )*
    comparison → term ( ( ">" | ">=" | "<" | "<=" ) term )*
    term       → factor ( ( "-" | "+" ) factor )*
    factor     → unary ( ( "/" | "*" ) unary )*
    unary      → ( "!" | "-" ) unary | primary
    primary    → NUMBER | STRING | "true" | "false" | "nil" | "(" expression ")"

The first five rules and the second choice of the sixth are one rule, because the
levels without operators repeat nothing. -/
inductive Derives : Level → List Token → Expr → Prop where
  | chain {level : Level} {first rest : List Token} {left expr : Expr} :
      level ≠ .primary → Derives level.tighter first left →
      Repeats level left rest expr → Derives level (first ++ rest) expr
  | sign {operator : Token} {tokens : List Token} {operand : Expr} :
      operator.kind = .bang ∨ operator.kind = .minus → Derives .unary tokens operand →
      Derives .unary (operator :: tokens) (.unary operator operand)
  | literal {token : Token} {value : Value} :
      token.Denotes value → Derives .primary [token] (.literal value)
  | group {opening closing : Token} {tokens : List Token} {inner : Expr} :
      opening.kind = .leftParen → closing.kind = .rightParen →
      Derives .expression tokens inner →
      Derives .primary (opening :: tokens ++ [closing]) (.grouping inner)

/-- Operators of a level with their right operands, each joined to all that stands
before it. -/
inductive Repeats : Level → Expr → List Token → Expr → Prop where
  | done {level : Level} {expr : Expr} : Repeats level expr [] expr
  | more {level : Level} {operator : Token} {tokens rest : List Token}
      {left right expr : Expr} :
      operator.kind ∈ level.operators → Derives level.tighter tokens right →
      Repeats level (.binary operator left right) rest expr →
      Repeats level left (operator :: tokens ++ rest) expr

end

/-! ## Shapes and yields -/

namespace Expr

/-- A tree of a level or a tighter one. The left operand of a binary operator is
at the operator's own level or tighter and the right one strictly tighter, and
the operand of a sign is at the level of signs. -/
inductive Stratified : Level → Expr → Prop where
  | literal {level : Level} {value : Value} : Stratified level (.literal value)
  | grouping {level : Level} {inner : Expr} :
      Stratified .expression inner → Stratified level (.grouping inner)
  | unary {level : Level} {operator : Token} {operand : Expr} :
      operator.kind = .bang ∨ operator.kind = .minus →
      level.rank ≤ Level.unary.rank → Stratified .unary operand →
      Stratified level (.unary operator operand)
  | binary {level own : Level} {operator : Token} {left right : Expr} :
      operator.kind ∈ own.operators → level.rank ≤ own.rank →
      Stratified own left → Stratified own.tighter right →
      Stratified level (.binary operator left right)

/-- The tokens of a tree from left to right. A tree keeps the tokens of its
operators, but of a group and of a literal only what they mean. -/
inductive Yields : Expr → List Token → Prop where
  | literal {token : Token} {value : Value} :
      token.Denotes value → Yields (.literal value) [token]
  | grouping {opening closing : Token} {tokens : List Token} {inner : Expr} :
      opening.kind = .leftParen → closing.kind = .rightParen → Yields inner tokens →
      Yields (.grouping inner) (opening :: tokens ++ [closing])
  | unary {operator : Token} {tokens : List Token} {operand : Expr} :
      Yields operand tokens → Yields (.unary operator operand) (operator :: tokens)
  | binary {operator : Token} {before after : List Token} {left right : Expr} :
      Yields left before → Yields right after →
      Yields (.binary operator left right) (before ++ operator :: after)

theorem Stratified.loosen {level looser : Level} {expr : Expr}
    (stratified : expr.Stratified level) (ranked : looser.rank ≤ level.rank) :
    expr.Stratified looser := by
  cases stratified with
  | literal => exact .literal
  | grouping inner => exact .grouping inner
  | unary sign bound operand => exact .unary sign (Nat.le_trans ranked bound) operand
  | binary member bound left right =>
      exact .binary member (Nat.le_trans ranked bound) left right

end Expr

mutual

theorem Derives.shape {level : Level} {tokens : List Token} {expr : Expr} :
    Derives level tokens expr → expr.Stratified level ∧ expr.Yields tokens
  | .chain _ first rest => by
      have shape := first.shape
      exact rest.shape (shape.1.loosen level.rank_le_tighter) shape.2
  | .sign kind operand => by
      have shape := operand.shape
      exact ⟨.unary kind (Nat.le_refl _) shape.1, .unary shape.2⟩
  | .literal denotes => ⟨.literal, .literal denotes⟩
  | .group opening closing inner => by
      have shape := inner.shape
      exact ⟨.grouping shape.1, .grouping opening closing shape.2⟩

theorem Repeats.shape {level : Level} {before rest : List Token} {left expr : Expr} :
    Repeats level left rest expr → left.Stratified level → left.Yields before →
    expr.Stratified level ∧ expr.Yields (before ++ rest)
  | .done, stratified, yields => ⟨stratified, by simpa using yields⟩
  | .more member operand rest, stratified, yields => by
      have shape := operand.shape
      have joined := rest.shape
        (.binary member (Nat.le_refl _) stratified shape.1) (.binary yields shape.2)
      simpa using joined

end

theorem Repeats.snoc {level : Level} {operator : Token} {rest tokens : List Token}
    {left middle right : Expr} (repeats : Repeats level left rest middle)
    (member : operator.kind ∈ level.operators)
    (operand : Derives level.tighter tokens right) :
    Repeats level left (rest ++ operator :: tokens) (.binary operator middle right) := by
  match repeats with
  | .done => simpa using Repeats.more member operand .done
  | .more first second rest =>
      simpa using Repeats.more first second (rest.snoc member operand)

/-- A tree of a level with operators may be the left operand of one more. -/
theorem Derives.snoc {level : Level} {operator : Token} {before after : List Token}
    {left right : Expr} (derives : Derives level before left)
    (member : operator.kind ∈ level.operators)
    (operand : Derives level.tighter after right) :
    Derives level (before ++ operator :: after) (.binary operator left right) := by
  cases derives with
  | chain notPrimary first rest =>
      simpa using Derives.chain notPrimary first (rest.snoc member operand)
  | sign | literal | group => simp [Level.operators] at member

theorem Derives.loosen {level looser : Level} {tokens : List Token} {expr : Expr}
    (derives : Derives level tokens expr) (ranked : looser.rank ≤ level.rank) :
    Derives looser tokens expr := by
  rcases Nat.eq_or_lt_of_le ranked with equal | less
  · cases Level.rank_injective equal
    exact derives
  · have notPrimary : looser ≠ .primary := by
      rintro rfl
      cases level <;> simp [Level.rank] at less
    have next := Level.rank_tighter notPrimary
    have tighter : Derives looser.tighter tokens expr := derives.loosen (by omega)
    simpa using Derives.chain notPrimary tighter .done
termination_by level.rank - looser.rank
decreasing_by omega

theorem Expr.Stratified.derives {level : Level} {expr : Expr} {tokens : List Token}
    (stratified : expr.Stratified level) (yields : expr.Yields tokens) :
    Derives level tokens expr := by
  induction yields generalizing level with
  | literal denotes => exact (Derives.literal denotes).loosen (by cases level <;> decide)
  | grouping opening closing _ ih =>
      cases stratified with
      | grouping inner =>
          exact (Derives.group opening closing (ih inner)).loosen
            (by cases level <;> decide)
  | unary _ ih =>
      cases stratified with
      | unary kind bound operand => exact (Derives.sign kind (ih operand)).loosen bound
  | binary _ _ leftIH rightIH =>
      cases stratified with
      | @binary _ own _ _ _ member bound left right =>
          have joined := (leftIH left).snoc member (rightIH right)
          exact joined.loosen bound

/-- The derivations of a level build the trees of that level or a tighter one, from
the tokens that they yield. -/
theorem derives_iff_stratified_and_yields {level : Level} {tokens : List Token}
    {expr : Expr} :
    Derives level tokens expr ↔ expr.Stratified level ∧ expr.Yields tokens :=
  ⟨Derives.shape, fun shape => shape.1.derives shape.2⟩

end Reckon
