import Reckon.Proofs.Decimal.ReadBack
import Reckon.Proofs.Session.Layout

/-!
# Trees in prefix form

A tree is printed with every operator in front of its operands and with parentheses around
them. If there is no text in the tree, the printed form can be taken apart in one way only: a
word ends at a space or at a closing parenthesis, and so the parentheses tell where a subtree
ends and how many of them there are. What is parsed of texts is therefore printed alike only if
it is the same up to lines.
-/

namespace Reckon

namespace Expr

/-! ## The parts of a printed tree -/

/-- The word that a tree is printed as, or that stands in front of its subtrees. -/
def head : Expr → List Char
  | .literal value => value.toText.toList
  | .grouping _ => "group".toList
  | .unary operator _ | .binary operator _ _ => operator.lexeme.toList

/-- The trees right below the root of a tree. -/
def subtrees : Expr → List Expr
  | .literal _ => []
  | .grouping inner => [inner]
  | .unary _ operand => [operand]
  | .binary _ left right => [left, right]

/-- Subtrees as they are printed, with a space in front of each. -/
def subtreesText (subtrees : List Expr) : List Char :=
  subtrees.flatMap fun subtree => ' ' :: subtree.toText.toList

theorem toList_toText_of_leaf {expr : Expr} (leaf : expr.subtrees = []) :
    expr.toText.toList = expr.head := by
  cases expr with
  | literal value => rfl
  | grouping | unary | binary => cases leaf

theorem toList_toText_of_node {expr : Expr} (node : expr.subtrees ≠ []) :
    expr.toText.toList = '(' :: (expr.head ++ (subtreesText expr.subtrees ++ [')'])) := by
  cases expr with
  | literal value => exact absurd rfl node
  | grouping | unary | binary => simp [toText, head, subtrees, subtreesText]

/-! ## Words -/

/-- The characters of words in a printed tree. -/
def isWordCharacter (character : Char) : Bool :=
  character != ' ' && character != '(' && character != ')'

/-- What may be behind a printed tree: nothing, a space, or a closing parenthesis. -/
def Ends (text : List Char) : Prop :=
  ∀ character ∈ text.head?, character = ' ' ∨ character = ')'

variable {word other after behind : List Char}

/-- A word ends where no other character of it can be. -/
theorem word_append_inj (isWord : word.all isWordCharacter = true)
    (isOther : other.all isWordCharacter = true) (ends : Ends after) (otherEnds : Ends behind)
    (same : word ++ after = other ++ behind) : word = other ∧ after = behind := by
  have stops {text : List Char} (ends : Ends text) :
      ∀ character ∈ text.head?, isWordCharacter character = false := by
    intro character isFirst
    rcases ends character isFirst with rfl | rfl <;> rfl
  obtain ⟨taken, dropped⟩ := Text.span_exact after (List.all_eq_true.mp isWord) (stops ends)
  obtain ⟨otherTaken, otherDropped⟩ :=
    Text.span_exact behind (List.all_eq_true.mp isOther) (stops otherEnds)
  rw [same] at taken dropped
  exact ⟨taken.symm.trans otherTaken, dropped.symm.trans otherDropped⟩

/-- No word begins with a parenthesis, and none is behind an empty word. -/
theorem word_append_ne_node (isWord : word.all isWordCharacter = true) (ends : Ends after) :
    word ++ after ≠ '(' :: other := by
  intro same
  cases word with
  | nil =>
      rw [List.nil_append] at same
      exact absurd (ends '(' (by rw [same]; rfl)) (by decide)
  | cons first rest =>
      obtain ⟨rfl, -⟩ := List.cons.inj same
      exact absurd (List.all_eq_true.mp isWord '(' List.mem_cons_self) (by decide)

theorem ends_subtreesText (subtrees : List Expr) (text : List Char) :
    Ends (subtreesText subtrees ++ ')' :: text) := by
  intro character isFirst
  cases subtrees with
  | nil => exact .inr (Option.some.inj isFirst).symm
  | cons subtree subtrees => exact .inl (Option.some.inj isFirst).symm

end Expr

/-! ## Trees without texts -/

/-- The operators of trees that are parsed. -/
def Kind.operators : List Kind :=
  [.bang, .minus, .bangEqual, .equalEqual, .greater, .greaterEqual, .less, .lessEqual, .plus,
   .slash, .star]

def Token.IsOperator (token : Token) : Prop :=
  token.WellFormed ∧ token.kind ∈ Kind.operators

/-- A value that is read of some token but a string. -/
inductive Value.Legible : Value → Prop where
  | nil : Legible .nil
  | boolean {truth : Bool} : Legible (.boolean truth)
  | number {decimal : Decimal} : Legible (.number decimal.toFloat)

namespace Expr

/-- A tree with operators at the nodes and values at the leaves that are read of tokens, and no
text among them. -/
def Legible : Expr → Prop
  | .literal value => value.Legible
  | .grouping inner => inner.Legible
  | .unary operator operand => operator.IsOperator ∧ operand.Legible
  | .binary operator left right => operator.IsOperator ∧ left.Legible ∧ right.Legible

/-- No literal of the tree is a text. -/
def TextFree : Expr → Prop
  | .literal value => ∀ content, value ≠ .text content
  | .grouping inner => inner.TextFree
  | .unary _ operand => operand.TextFree
  | .binary _ left right => left.TextFree ∧ right.TextFree

end Expr

/-! ### The words of values -/

theorem Decimal.isWordCharacter_toText (decimal : Decimal) :
    decimal.toText.all Expr.isWordCharacter = true := by
  have digit {digits : List Char} (allDigits : ∀ digit ∈ digits, digit.isDigit) :
      ∀ digit ∈ digits, Expr.isWordCharacter digit = true := by
    intro digit member
    cases word : Expr.isWordCharacter digit with
    | true => rfl
    | false =>
        simp only [Expr.isWordCharacter, Bool.and_eq_false_iff, bne_eq_false_iff_eq] at word
        rcases word with (rfl | rfl) | rfl <;> exact absurd (allDigits _ member) (by decide)
  rw [List.all_eq_true]
  -- a number is written as digits, or as digits around a point
  generalize spelled : decimal.toText = text
  have lexeme := spelled ▸ decimal.lexeme_toText
  generalize some (Value.number decimal.toFloat) = literal at lexeme
  cases lexeme with
  | fixed known => cases known
  | whole _ digits => exact digit digits
  | fraction _ digits _ fraction =>
      rw [List.forall_mem_append, List.forall_mem_cons]
      exact ⟨digit digits, rfl, digit fraction⟩

theorem Decimal.numberText_toFloat (decimal : Decimal) :
    Value.numberText decimal.toFloat = "inf" ∨
      ∃ shortest : Decimal, Value.numberText decimal.toFloat = String.ofList shortest.toText := by
  rw [toFloat, Value.numberText_ofPattern (Binary64.nearest_le_infinity _ _)]
  split
  · exact .inl rfl
  · exact .inr ⟨_, rfl⟩

theorem Decimal.numberText_ne_spelling (decimal : Decimal) (word : Keyword) :
    Value.numberText decimal.toFloat ≠ word.spelling := by
  rcases decimal.numberText_toFloat with infinite | ⟨shortest, finite⟩
  · rw [infinite]
    cases word <;> decide
  · rw [finite]
    intro same
    have number := shortest.lexeme_toText
    rw [← String.toList_ofList (l := shortest.toText), same] at number
    have reserved : Lexeme (.keyword word) word.spelling.toList none := .fixed rfl
    cases (number.unique reserved).1

namespace Value.Legible

variable {value other : Value}

/-- Different values that are read of tokens are written differently. -/
theorem toText_injective (legible : value.Legible) (otherLegible : other.Legible)
    (same : value.toText = other.toText) : value = other := by
  have word {decimal : Decimal} (keyword : Keyword) :
      Value.numberText decimal.toFloat ≠ keyword.spelling :=
    decimal.numberText_ne_spelling keyword
  cases legible with
  | nil =>
      cases otherLegible with
      | nil => rfl
      | @boolean truth => cases truth <;> exact absurd same (by decide)
      | number => exact absurd same.symm (word .nilWord)
  | @boolean truth =>
      cases otherLegible with
      | nil => cases truth <;> exact absurd same (by decide)
      | @boolean otherTruth =>
          cases truth <;> cases otherTruth <;> first | rfl | exact absurd same (by decide)
      | number =>
          cases truth with
          | true => exact absurd same.symm (word .trueWord)
          | false => exact absurd same.symm (word .falseWord)
  | number =>
      cases otherLegible with
      | nil => exact absurd same (word .nilWord)
      | @boolean truth =>
          cases truth with
          | true => exact absurd same (word .trueWord)
          | false => exact absurd same (word .falseWord)
      | number =>
          have patterns := numberText_injective (Binary64.nearest_le_infinity _ _)
            (Binary64.nearest_le_infinity _ _) same
          rw [Decimal.toFloat, Decimal.toFloat, patterns]

theorem isWordCharacter_toText (legible : value.Legible) :
    value.toText.toList.all Expr.isWordCharacter = true := by
  cases legible with
  | nil => decide
  | @boolean truth => cases truth <;> decide
  | @number decimal =>
      rw [toText]
      rcases decimal.numberText_toFloat with infinite | ⟨shortest, finite⟩
      · rw [infinite]
        decide
      · rw [finite, String.toList_ofList]
        exact shortest.isWordCharacter_toText

end Value.Legible

/-! ### The words of operators -/

namespace Token.IsOperator

variable {operator other : Token}

theorem spelling?_eq (isOperator : operator.IsOperator) :
    operator.kind.spelling? = some operator.lexeme := by
  obtain ⟨wellFormed, known⟩ := isOperator
  obtain ⟨kind, lexeme, literal, line⟩ := operator
  change Lexeme kind lexeme.toList literal at wellFormed
  change kind ∈ Kind.operators at known
  generalize written : lexeme.toList = text at wellFormed
  cases wellFormed with
  | fixed spelled => rwa [String.toList_injective written]
  | identifier | string | whole | fraction => exact absurd known (by decide)

theorem word (isOperator : operator.IsOperator) :
    operator.lexeme.toList.all Expr.isWordCharacter = true ∧ operator.lexeme ≠ "group" := by
  have words : ∀ kind ∈ Kind.operators, ∀ spelling ∈ kind.spelling?,
      spelling.toList.all Expr.isWordCharacter = true ∧ spelling ≠ "group" := by
    decide
  exact words _ isOperator.2 _ isOperator.spelling?_eq

theorem unlined_eq (isOperator : operator.IsOperator) (isOther : other.IsOperator)
    (same : operator.lexeme.toList = other.lexeme.toList) : operator.unlined = other.unlined := by
  have wellFormed := isOperator.1
  rw [WellFormed, same] at wellFormed
  exact Scanned.unlined_eq (.inl isOperator.1) (.inl isOther.1) (wellFormed.unique isOther.1).1
    (String.toList_injective same)

end Token.IsOperator

namespace Expr

variable {expr other : Expr} {after behind : List Char}

theorem Legible.head_isWord (legible : expr.Legible) : expr.head.all isWordCharacter = true := by
  cases expr with
  | literal => exact Value.Legible.isWordCharacter_toText legible
  | grouping => exact (by decide : "group".toList.all isWordCharacter = true)
  | unary | binary => exact legible.1.word.1

theorem Legible.of_mem_subtrees (legible : expr.Legible) {subtree : Expr}
    (member : subtree ∈ expr.subtrees) : subtree.Legible := by
  cases expr with
  | literal => cases member
  | grouping =>
      rw [List.mem_singleton.mp member]
      exact legible
  | unary =>
      rw [List.mem_singleton.mp member]
      exact legible.2
  | binary =>
      simp only [subtrees, List.mem_cons, List.not_mem_nil, or_false] at member
      rcases member with rfl | rfl
      · exact legible.2.1
      · exact legible.2.2

/-- A tree is the same up to lines if its word and its subtrees are. -/
theorem Legible.unlined_eq (legible : expr.Legible) (otherLegible : other.Legible)
    (heads : expr.head = other.head)
    (same : expr.subtrees.map unlined = other.subtrees.map unlined) :
    expr.unlined = other.unlined := by
  have notGroup {operator : Token} (isOperator : operator.IsOperator) :
      "group".toList ≠ operator.lexeme.toList :=
    fun same => isOperator.word.2 (String.toList_injective same).symm
  cases expr with
  | literal value =>
      cases other with
      | literal otherValue =>
          have texts := String.toList_injective heads
          rw [Value.Legible.toText_injective legible otherLegible texts]
      | grouping | unary | binary => simp [subtrees] at same
  | grouping inner =>
      cases other with
      | grouping otherInner => rw [unlined, unlined, (List.cons.inj same).1]
      | unary => exact absurd heads (notGroup otherLegible.1)
      | literal | binary => simp [subtrees] at same
  | unary operator operand =>
      cases other with
      | unary otherOperator otherOperand =>
          rw [unlined, unlined, legible.1.unlined_eq otherLegible.1 heads, (List.cons.inj same).1]
      | grouping => exact absurd heads.symm (notGroup legible.1)
      | literal | binary => simp [subtrees] at same
  | binary operator left right =>
      cases other with
      | binary otherOperator otherLeft otherRight =>
          obtain ⟨lefts, rights⟩ := List.cons.inj same
          rw [unlined, unlined, legible.1.unlined_eq otherLegible.1 heads, lefts,
            (List.cons.inj rights).1]
      | literal | grouping | unary => simp [subtrees] at same

/-- A printed tree is told from whatever stands behind it. -/
def ReadsUniquely (expr : Expr) : Prop :=
  ∀ ⦃other : Expr⦄ ⦃after behind : List Char⦄, other.Legible → Ends after → Ends behind →
    expr.toText.toList ++ after = other.toText.toList ++ behind →
    expr.unlined = other.unlined ∧ after = behind

/-- Subtrees that are told from what stands behind them are taken apart in one way. -/
theorem subtreesText_append_inj {subtrees others : List Expr}
    (unique : ∀ subtree ∈ subtrees, subtree.ReadsUniquely)
    (legible : ∀ other ∈ others, other.Legible)
    (same : subtreesText subtrees ++ ')' :: after = subtreesText others ++ ')' :: behind) :
    subtrees.map unlined = others.map unlined ∧ after = behind := by
  induction subtrees generalizing others with
  | nil =>
      cases others with
      | nil => exact ⟨rfl, (List.cons.inj same).2⟩
      | cons other others => exact absurd (List.cons.inj same).1 (by decide)
  | cons subtree subtrees ih =>
      cases others with
      | nil => exact absurd (List.cons.inj same).1 (by decide)
      | cons other others =>
          obtain ⟨uniqueFirst, uniqueRest⟩ := List.forall_mem_cons.mp unique
          obtain ⟨legibleFirst, legibleRest⟩ := List.forall_mem_cons.mp legible
          simp only [subtreesText, List.flatMap_cons, List.cons_append, List.append_assoc] at same
          obtain ⟨first, rest⟩ := uniqueFirst legibleFirst (ends_subtreesText subtrees after)
            (ends_subtreesText others behind) (List.cons.inj same).2
          obtain ⟨tail, texts⟩ := ih uniqueRest legibleRest rest
          exact ⟨by rw [List.map_cons, List.map_cons, first, tail], texts⟩

/-- What is told of the subtrees is told of the tree. -/
theorem readsUniquely_of_subtrees (legible : expr.Legible)
    (unique : ∀ subtree ∈ expr.subtrees, subtree.ReadsUniquely) : expr.ReadsUniquely := by
  intro other after behind otherLegible ends otherEnds same
  by_cases leaf : expr.subtrees = []
  · by_cases otherLeaf : other.subtrees = []
    · rw [toList_toText_of_leaf leaf, toList_toText_of_leaf otherLeaf] at same
      obtain ⟨heads, texts⟩ :=
        word_append_inj legible.head_isWord otherLegible.head_isWord ends otherEnds same
      exact ⟨legible.unlined_eq otherLegible heads (by rw [leaf, otherLeaf]), texts⟩
    · rw [toList_toText_of_leaf leaf, toList_toText_of_node otherLeaf] at same
      exact absurd same (word_append_ne_node legible.head_isWord ends)
  · by_cases otherLeaf : other.subtrees = []
    · rw [toList_toText_of_node leaf, toList_toText_of_leaf otherLeaf] at same
      exact absurd same.symm (word_append_ne_node otherLegible.head_isWord otherEnds)
    · rw [toList_toText_of_node leaf, toList_toText_of_node otherLeaf] at same
      simp only [List.cons_append, List.append_assoc, List.nil_append] at same
      obtain ⟨heads, rest⟩ := word_append_inj legible.head_isWord otherLegible.head_isWord
        (ends_subtreesText expr.subtrees after) (ends_subtreesText other.subtrees behind)
        (List.cons.inj same).2
      obtain ⟨trees, texts⟩ :=
        subtreesText_append_inj unique (fun _ => otherLegible.of_mem_subtrees) rest
      exact ⟨legible.unlined_eq otherLegible heads trees, texts⟩

theorem Legible.readsUniquely (legible : expr.Legible) : expr.ReadsUniquely := by
  induction expr with
  | literal value => exact readsUniquely_of_subtrees legible nofun
  | grouping inner ih =>
      exact readsUniquely_of_subtrees legible (List.forall_mem_singleton.mpr (ih legible))
  | unary operator operand ih =>
      exact readsUniquely_of_subtrees legible (List.forall_mem_singleton.mpr (ih legible.2))
  | binary operator left right leftIH rightIH =>
      exact readsUniquely_of_subtrees legible
        (List.forall_mem_cons.mpr ⟨leftIH legible.2.1,
          List.forall_mem_singleton.mpr (rightIH legible.2.2)⟩)

/-- Trees are printed alike exactly if they are the same up to lines. -/
theorem Legible.toText_eq_iff (legible : expr.Legible) (otherLegible : other.Legible) :
    expr.toText = other.toText ↔ expr.unlined = other.unlined := by
  constructor
  · intro same
    have nothing : Ends [] := nofun
    exact (legible.readsUniquely otherLegible nothing nothing
      (congrArg (·.toList ++ []) same)).1
  · intro same
    rw [← toText_unlined expr, same, toText_unlined]

end Expr

/-! ## Parsed trees -/

theorem Token.Denotes.legible {token : Token} {value : Value} (denotes : token.Denotes value)
    (wellFormed : token.WellFormed) (noText : ∀ content, value ≠ .text content) :
    value.Legible := by
  cases denotes with
  | falseWord | trueWord => exact .boolean
  | nilWord | bare => exact .nil
  | carried _ literal =>
      rw [WellFormed, literal] at wellFormed
      generalize token.kind = kind, token.lexeme.toList = text at wellFormed
      cases wellFormed with
      | string => exact absurd rfl (noText _)
      | whole | fraction => exact .number

theorem Kind.mem_operators_of_level {kind : Kind} {level : Level}
    (member : kind ∈ level.operators) : kind ∈ operators := by
  have among : ∀ kind ∈ level.operators, kind ∈ operators := by cases level <;> decide
  exact among kind member

namespace Expr

theorem Yields.legible {expr : Expr} {tokens : List Token} (yields : expr.Yields tokens)
    {level : Level} (stratified : expr.Stratified level)
    (wellFormed : ∀ token ∈ tokens, token.WellFormed) (textFree : expr.TextFree) :
    expr.Legible := by
  induction yields generalizing level with
  | literal denotes =>
      exact denotes.legible (List.forall_mem_singleton.mp wellFormed) textFree
  | grouping _ _ _ ih =>
      cases stratified with
      | grouping inner =>
          rw [List.forall_mem_append, List.forall_mem_cons] at wellFormed
          exact ih inner wellFormed.1.2 textFree
  | unary _ ih =>
      cases stratified with
      | unary sign _ operand =>
          rw [List.forall_mem_cons] at wellFormed
          refine ⟨⟨wellFormed.1, ?_⟩, ih operand wellFormed.2 textFree⟩
          rcases sign with kind | kind <;> rw [kind] <;> decide
  | binary _ _ leftIH rightIH =>
      cases stratified with
      | binary member _ left right =>
          rw [List.forall_mem_append, List.forall_mem_cons] at wellFormed
          exact ⟨⟨wellFormed.2.1, Kind.mem_operators_of_level member⟩,
            leftIH left wellFormed.1 textFree.1, rightIH right wellFormed.2.2 textFree.2⟩

end Expr

namespace Session

/-- What is parsed of a text has the operators and the literals that are written in it. -/
theorem legible_of_parse {log : Log} {source : String} {expr : Expr}
    (parsed : (parse log source).1 = some expr) (textFree : expr.TextFree) : expr.Legible := by
  simp only [parse] at parsed
  split at parsed
  next => cases parsed
  next =>
      obtain ⟨stratified, yields⟩ := ((parseTokens_fst_eq_some_iff _ _ _).mp parsed).shape
      refine yields.legible stratified (fun token member => ?_) textFree
      rcases Scan.tokens_scanned source token ((List.takeWhile_subset _) member) with
        wellFormed | ⟨line, rfl⟩
      · exact wellFormed
      · exact absurd (List.mem_takeWhile_imp member) (by simp [Token.endAt])

/-- If there are no texts in the trees that two sources are parsed to, then these are printed
alike exactly if they are the same up to the lines of their operators. -/
theorem parse_toText_eq_iff {log otherLog : Log} {source otherSource : String}
    {expr other : Expr} (parsed : (parse log source).1 = some expr)
    (otherParsed : (parse otherLog otherSource).1 = some other) (textFree : expr.TextFree)
    (otherTextFree : other.TextFree) :
    expr.toText = other.toText ↔ expr.unlined = other.unlined :=
  (legible_of_parse parsed textFree).toText_eq_iff (legible_of_parse otherParsed otherTextFree)

/-- A difference of two signs is printed otherwise than the sign of a difference. -/
theorem parse_toText_eq_iff_signs :
    let sign (line : Nat) : Token := ⟨.minus, "-", none, line⟩
    let left : Expr := .binary (sign 1) (.unary (sign 1) (.literal .nil)) (.literal (.boolean true))
    let right : Expr :=
      .unary (sign 1) (.grouping (.binary (sign 2) (.literal .nil) (.literal (.boolean true))))
    (parse .empty "-nil - true").1 = some left ∧ (parse .empty "-(nil\n- true)").1 = some right ∧
      left.TextFree ∧ right.TextFree ∧ left.toText ≠ right.toText := by
  intro sign left right
  have parsed : (parse .empty "-nil - true").1 = some left := by decide +kernel
  have otherParsed : (parse .empty "-(nil\n- true)").1 = some right := by decide +kernel
  have textFree : left.TextFree := ⟨nofun, nofun⟩
  have otherTextFree : right.TextFree := ⟨nofun, nofun⟩
  exact ⟨parsed, otherParsed, textFree, otherTextFree,
    mt (parse_toText_eq_iff parsed otherParsed textFree otherTextFree).mp nofun⟩

end Session

end Reckon
