import Reckon.Proofs.Session.Printed
import Reckon.Proofs.Token.LineBreak
import Reckon.Proofs.Token.Trivia

/-!
# Concatenation

Plus signs join texts, and it does not matter how the sums are grouped: a tree of sums over
trees that evaluate to texts evaluates to these texts, joined from left to right. So a program
of string literals with plus signs between them is run to their contents, one behind the other.
Nothing in a literal has a meaning of its own, and nothing but a quote ends it.
-/

namespace Reckon

/-! ## Trees -/

/-- A tree of sums and groups over trees that evaluate to texts, which are listed from left to
right. -/
inductive Expr.Joins : Expr → List String → Prop where
  | leaf {expr : Expr} {content : String} :
      expr.eval = .ok (.text content) → Joins expr [content]
  | grouping {inner : Expr} {contents : List String} :
      Joins inner contents → Joins (.grouping inner) contents
  | plus {operator : Token} {left right : Expr} {before after : List String} :
      operator.kind = .plus → Joins left before → Joins right after →
      Joins (.binary operator left right) (before ++ after)

theorem Expr.Joins.eval {expr : Expr} {contents : List String} (joins : expr.Joins contents) :
    expr.eval = .ok (.text (String.join contents)) := by
  induction joins with
  | leaf evaluates => simpa using evaluates
  | grouping _ ih => exact ih
  | @plus operator left right before after isPlus _ _ leftIH rightIH =>
      have applied (front back : String) :
          applyBinary operator (.text front) (.text back) = .ok (.text (front ++ back)) := by
        rw [applyBinary, isPlus]
        rfl
      rw [Expr.eval, rightIH, leftIH, String.join_append]
      exact applied _ _

/-! ## Tokens -/

/-- Operands with plus signs between them, and the texts that they evaluate to. -/
inductive Summands : List Token → List String → Prop where
  | operand {tokens : List Token} {expr : Expr} {contents : List String} :
      Derives .factor tokens expr → expr.Joins contents → Summands tokens contents
  | more {before tokens : List Token} {operator : Token} {expr : Expr}
      {front contents : List String} :
      Summands before front → operator.kind = .plus → Derives .factor tokens expr →
      expr.Joins contents → Summands (before ++ operator :: tokens) (front ++ contents)

theorem Summands.append {before after : List Token} {operator : Token}
    {front back : List String} (summands : Summands before front)
    (isPlus : operator.kind = .plus) (others : Summands after back) :
    Summands (before ++ operator :: after) (front ++ back) := by
  induction others with
  | operand derives joins => exact .more summands isPlus derives joins
  | more _ another derives joins ih =>
      have whole := Summands.more ih another derives joins
      simpa using whole

theorem Summands.derives {tokens : List Token} {contents : List String}
    (summands : Summands tokens contents) :
    ∃ expr, Derives .term tokens expr ∧ expr.Joins contents := by
  induction summands with
  | operand derives joins => exact ⟨_, derives.loosen (by decide), joins⟩
  | more _ isPlus derives joins ih =>
      obtain ⟨left, leftDerives, leftJoins⟩ := ih
      have isTerm : Kind.plus ∈ Level.operators .term := by decide
      exact ⟨_, leftDerives.snoc (isPlus ▸ isTerm) derives, .plus isPlus leftJoins joins⟩

theorem Summands.group {opening closing : Token} {tokens : List Token} {contents : List String}
    (opens : opening.kind = .leftParen) (closes : closing.kind = .rightParen)
    (summands : Summands tokens contents) :
    Summands (opening :: tokens ++ [closing]) contents := by
  obtain ⟨expr, derives, joins⟩ := summands.derives
  have grouped := Derives.group opens closes (derives.loosen (Nat.zero_le _))
  exact .operand (grouped.loosen (by decide)) (.grouping joins)

/-! ## Texts that are read alike -/

namespace Piece

/-- A text that is read as some tokens, whatever follows it. -/
def ReadAs (text : List Char) (tokens : List Token) : Prop :=
  ∃ pieces, (∀ rest, Reads (text ++ rest) pieces rest) ∧
    pieces.filterMap written? = tokens ∧ pieces.filterMap complaint? = []

variable {text other : List Char} {tokens others : List Token}

theorem ReadAs.append (reads : ReadAs text tokens) (next : ReadAs other others) :
    ReadAs (text ++ other) (tokens ++ others) := by
  obtain ⟨front, readsFront, written, silent⟩ := reads
  obtain ⟨back, readsBack, writtenBack, silentBack⟩ := next
  refine ⟨front ++ back, fun rest => ?_, ?_, ?_⟩
  · rw [List.append_assoc]
    exact (readsFront (other ++ rest)).append (readsBack rest)
  · rw [List.filterMap_append, written, writtenBack]
  · rw [List.filterMap_append, silent, silentBack, List.append_nil]

theorem ReadAs.token {kind : Kind} {first : Char} {lexeme : List Char} {literal : Option Value}
    (reads : ∀ rest, read first (lexeme ++ rest) = .token kind (first :: lexeme) literal) :
    ReadAs (first :: lexeme) [⟨kind, String.ofList (first :: lexeme), literal, 0⟩] := by
  refine ⟨[.token kind (first :: lexeme) literal], fun rest => ?_, rfl, rfl⟩
  have split : first :: (lexeme ++ rest) = (read first (lexeme ++ rest)).text ++ rest := by
    rw [reads, Piece.text, List.cons_append]
  have one := Reads.more split .done
  rw [reads] at one
  exact one

theorem Fits.reads {piece : Piece} {after : List Char} (fits : piece.Fits after)
    (unwritten : piece.written? = none) : Reads (piece.text ++ after) [piece] after := by
  obtain ⟨first, rest, text, isRead⟩ := fits.read fun written => by
    rw [unwritten] at written
    cases written
  have split : first :: (rest ++ after) = (Piece.read first (rest ++ after)).text ++ after := by
    rw [isRead, text, List.cons_append]
  have one := Reads.more split .done
  rw [isRead] at one
  rw [text]
  exact one

theorem Trivia.readAs (trivia : Trivia text) : ReadAs text [] := by
  induction trivia with
  | nil => exact ⟨[], fun _ => .done, rfl, rfl⟩
  | @blank character rest isBlank _ ih =>
      have one : ReadAs [character] [] :=
        ⟨[.blank character], fun _ => (Fits.blank isBlank).reads rfl, rfl, rfl⟩
      exact one.append ih
  | @lineComment body rest oneLine _ ih =>
      have line : ReadAs ('/' :: '/' :: (body ++ ['\n'])) [] := by
        refine ⟨[.lineComment ('/' :: '/' :: body), .blank '\n'], fun after => ?_, rfl, rfl⟩
        have comment : (Piece.lineComment ('/' :: '/' :: body)).Fits ('\n' :: after) :=
          .lineComment oneLine (by simp)
        have lineFeed : (Piece.blank '\n').Fits after := .blank (by decide)
        have both := (comment.reads rfl).append (lineFeed.reads rfl)
        simpa [Piece.text] using both
      simpa using line.append ih
  | @blockComment body rest closes _ ih =>
      have comment : ReadAs ('/' :: '*' :: body) [] :=
        ⟨[.blockComment ('/' :: '*' :: body)],
          fun _ => (Fits.blockComment closes).reads rfl, rfl, rfl⟩
      exact comment.append ih

/-- What a text is scanned to that is read as some tokens. -/
theorem ReadAs.scan {source : String} (reads : ReadAs source.toList tokens) :
    (Scan.ofSource source).tokens.map Token.unlined =
        tokens.map Token.unlined ++ [Token.endAt 0] ∧
      (Scan.ofSource source).diagnostics = [] ∧ ∀ token ∈ tokens, token.WellFormed := by
  obtain ⟨pieces, reads, rfl, silent⟩ := reads
  have whole := reads []
  rw [List.append_nil] at whole
  have found : (Cursor.start source).pieces.map Prod.snd = pieces := whole.pieces_eq rfl
  have messages := Scan.diagnostics_message source
  rw [found, silent] at messages
  refine ⟨?_, List.map_eq_nil_iff.mp messages, fun token member => ?_⟩
  · have onNoLine (piece : Piece) : piece.written?.map Token.unlined = piece.written? := by
      cases piece <;> rfl
    rw [Scan.tokens_unlined, found, List.map_filterMap]
    simp only [onNoLine]
  · obtain ⟨piece, isPiece, written⟩ := List.mem_filterMap.mp member
    rw [← found] at isPiece
    obtain ⟨after, fits⟩ := (Cursor.start source).pieces_divide.fits piece isPiece
    cases fits with
    | token lexeme =>
        cases written
        rw [Token.WellFormed, String.toList_ofList]
        exact lexeme
    | _ => cases written

end Piece

/-! ## Texts -/

/-- String literals with plus signs between them, in any parentheses, and with blanks and
comments around any part. The contents of the literals are listed as they are written. -/
inductive Concatenation : (contents : List String) → (text : List Char) → Prop where
  | literal {content : String} :
      '"' ∉ content.toList → Concatenation [content] ('"' :: (content.toList ++ ['"']))
  | group {contents : List String} {text : List Char} :
      Concatenation contents text → Concatenation contents ('(' :: (text ++ [')']))
  | plus {before after : List String} {left right : List Char} :
      Concatenation before left → Concatenation after right →
      Concatenation (before ++ after) (left ++ '+' :: right)
  | padded {contents : List String} {front text back : List Char} :
      Piece.Trivia front → Concatenation contents text → Piece.Trivia back →
      Concatenation contents (front ++ text ++ back)

namespace Concatenation

variable {contents : List String} {text : List Char}

theorem exists_text (nonempty : contents ≠ [])
    (unquoted : ∀ content ∈ contents, '"' ∉ content.toList) :
    ∃ text, Concatenation contents text := by
  induction contents with
  | nil => exact absurd rfl nonempty
  | cons first others ih =>
      obtain ⟨unquotedFirst, unquotedOthers⟩ := List.forall_mem_cons.mp unquoted
      cases others with
      | nil => exact ⟨_, .literal unquotedFirst⟩
      | cons second others =>
          obtain ⟨text, concatenation⟩ := ih (List.cons_ne_nil second others) unquotedOthers
          exact ⟨_, .plus (.literal unquotedFirst) concatenation⟩

/-- The tokens of a concatenation are those of a sum. -/
theorem readAs (concatenation : Concatenation contents text) :
    ∃ tokens, Piece.ReadAs text tokens ∧ Summands tokens contents := by
  induction concatenation with
  | @literal content unquoted =>
      have reads (rest : List Char) :
          Piece.read '"' (content.toList ++ ['"'] ++ rest) =
            .token .string ('"' :: (content.toList ++ ['"']))
              (some (.text (String.ofList content.toList))) := by
        rw [List.append_assoc]
        exact Piece.afterQuote_eq unquoted
      have leaf : Expr.Joins (.literal (.text content)) [content] := .leaf rfl
      refine ⟨_, .token reads, .operand ?_ leaf⟩
      rw [String.ofList_toList]
      exact (Derives.literal (.carried (.inr rfl) rfl)).loosen (by decide)
  | group _ ih =>
      obtain ⟨tokens, reads, summands⟩ := ih
      have opening : Piece.ReadAs ['('] _ := .token fun _ => rfl
      have closing : Piece.ReadAs [')'] _ := .token fun _ => rfl
      exact ⟨_, (opening.append reads).append closing, summands.group rfl rfl⟩
  | plus _ _ leftIH rightIH =>
      obtain ⟨before, leftReads, leftSummands⟩ := leftIH
      obtain ⟨after, rightReads, rightSummands⟩ := rightIH
      have sign : Piece.ReadAs ['+'] _ := .token fun _ => rfl
      exact ⟨_, leftReads.append (sign.append rightReads), leftSummands.append rfl rightSummands⟩
  | padded front _ back ih =>
      obtain ⟨tokens, reads, summands⟩ := ih
      refine ⟨tokens, ?_, summands⟩
      have padded := (front.readAs.append reads).append back.readAs
      rwa [List.nil_append, List.append_nil] at padded

end Concatenation

namespace Session

/-- A concatenation is run to the contents of its literals. -/
theorem run_of_concatenation {contents : List String} {source : String}
    (concatenation : Concatenation contents source.toList) :
    run .empty source = .ok (some (String.join contents), .empty) := by
  obtain ⟨tokens, reads, summands⟩ := concatenation.readAs
  obtain ⟨expr, derives, joins⟩ := summands.derives
  obtain ⟨scanned, silent, wellFormed⟩ := reads.scan
  obtain ⟨stratified, yields⟩ := derives.shape
  obtain ⟨parsed, parses, same, -⟩ :=
    parse_of_tokens scanned silent wellFormed (stratified.loosen (Nat.zero_le _)) yields
  have evaluates : parsed.eval = .ok (.text (String.join contents)) := by
    refine Expr.eval_eq_ok_of_alike ?_ joins.eval
    rw [← Expr.ungrouped_unlined, same, Expr.ungrouped_unlined]
  rw [run, parses]
  simp only [interpret, evaluates, Value.toText]

/-- Concatenation is associative in effect. A tree of sums over trees that evaluate to texts
evaluates to the texts from left to right, whatever its shape. Any texts without quotes can be
written as string literals with plus signs between them, and whatever parentheses, blanks and
comments there are, the program is run to these very texts without a complaint. -/
theorem run_concatenation :
    (∀ (expr : Expr) (contents : List String), expr.Joins contents →
      expr.eval = .ok (.text (String.join contents))) ∧
    ∀ contents : List String, contents ≠ [] →
      (∀ content ∈ contents, '"' ∉ content.toList) →
      (∃ source : String, Concatenation contents source.toList) ∧
      ∀ source : String, Concatenation contents source.toList →
        run .empty source = .ok (some (String.join contents), .empty) := by
  refine ⟨fun _ _ joins => joins.eval, fun contents nonempty unquoted => ⟨?_, ?_⟩⟩
  · obtain ⟨text, concatenation⟩ := Concatenation.exists_text nonempty unquoted
    exact ⟨String.ofList text, by rwa [String.toList_ofList]⟩
  · exact fun source => run_of_concatenation

/-- Backslashes, line feeds and marks of comments are kept, and what looks like a sum or a comment
in a literal is none. The tree is one of other leaves than literals. -/
theorem run_concatenation_marks :
    let plus : Token := ⟨.plus, "+", none, 1⟩
    let contents := ["\\n", "// \n", "/* +"]
    let source := "\"\\n\"+ (\"// \n\"/* + */+(\"/* +\"))"
    let sum : Expr := .binary plus (.literal (.text "a")) (.literal (.text "b"))
    let expr : Expr := .binary plus sum (.grouping (.binary plus (.literal (.text "c")) sum))
    (expr.Joins ["ab", "c", "a", "b"] ∧ expr.eval = .ok (.text "abcab")) ∧
      contents ≠ [] ∧ (∀ content ∈ contents, '"' ∉ content.toList) ∧
      Concatenation contents source.toList ∧
      run .empty source = .ok (some "\\n// \n/* +", .empty) := by
  intro plus contents source sum expr
  have joinsSum : sum.Joins ["a", "b"] := .plus rfl (.leaf rfl) (.leaf rfl)
  have joins : expr.Joins ["ab", "c", "a", "b"] :=
    .plus rfl (.leaf rfl) (.grouping (.plus rfl (.leaf rfl) joinsSum))
  have unquoted : ∀ content ∈ contents, '"' ∉ content.toList := by decide
  have concatenation : Concatenation contents source.toList := by
    have space : Piece.Trivia [' '] := .blank (by decide) .nil
    have closes : Piece.ClosesComment [' ', '+', ' ', '*', '/'] :=
      (Piece.closeComment_eq_some_iff.mp (by rfl : Piece.closeComment 0
        [' ', '+', ' ', '*', '/'] = some [' ', '+', ' ', '*', '/'])).1
    have comment : Piece.Trivia ['/', '*', ' ', '+', ' ', '*', '/'] := .blockComment closes .nil
    have second := Concatenation.padded .nil (.literal (unquoted "// \n" (by decide))) comment
    have third := Concatenation.group (.literal (unquoted "/* +" (by decide)))
    have last := Concatenation.padded space (.group (.plus second third)) .nil
    have whole := Concatenation.plus (.literal (unquoted "\\n" (by decide))) last
    simpa [contents, source] using whole
  obtain ⟨evaluates, runs⟩ := run_concatenation
  exact ⟨⟨joins, evaluates expr _ joins⟩, by decide, unquoted, concatenation,
    (runs contents (by decide) unquoted).2 source concatenation⟩

end Session

end Reckon
