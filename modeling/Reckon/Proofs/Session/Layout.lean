import Reckon.Proofs.Session.Panic

/-!
# Layout

Blanks, line breaks and comments between tokens move the tokens to other lines and do
nothing else. This module takes the lines out of everything that parsing and evaluation
handle, and proves that each of their steps commutes with that. So texts of the same
tokens have the same results and the same diagnostics up to lines.
-/

namespace Reckon

/-! ## Places without lines -/

def Waiting.unlined (waiting : Waiting) : Waiting :=
  { waiting with left := waiting.left.unlined, operator := waiting.operator.unlined }

def Outer.unlined (outer : Outer) : Outer where
  lefts := outer.lefts.map Waiting.unlined
  signs := outer.signs.map Token.unlined

def Place.unlined : Place → Place
  | .beforeOperand lefts signs outers =>
      .beforeOperand (lefts.map Waiting.unlined) (signs.map Token.unlined)
        (outers.map Outer.unlined)
  | .behindOperand lefts operand outers =>
      .behindOperand (lefts.map Waiting.unlined) operand.unlined (outers.map Outer.unlined)

def SyntaxError.unlined (error : SyntaxError) : SyntaxError :=
  { error with token := error.token.unlined }

def Parser.unlined (parser : Parser) : Parser where
  remaining := parser.remaining.map Token.unlined
  stop := parser.stop.unlined

@[simp] theorem Token.unlined_kind (token : Token) : token.unlined.kind = token.kind := rfl

@[simp] theorem Token.unlined_operand? (token : Token) :
    token.unlined.operand? = token.operand? := rfl

theorem joinTighter_unlined (tightness : Nat) (lefts : List Waiting) (operand : Expr) :
    joinTighter tightness (lefts.map Waiting.unlined) operand.unlined =
      ((joinTighter tightness lefts operand).1.map Waiting.unlined,
        (joinTighter tightness lefts operand).2.unlined) := by
  induction lefts generalizing operand with
  | nil => rfl
  | cons waiting lefts ih =>
      have same : waiting.unlined.tightness = waiting.tightness := rfl
      rw [List.map_cons, joinTighter, joinTighter, same]
      split
      next tighter => exact ih (waiting.join operand)
      next looser => rfl

@[simp] theorem foldl_join_unlined (lefts : List Waiting) (operand : Expr) :
    (lefts.map Waiting.unlined).foldl Waiting.join operand.unlined =
      (lefts.foldl Waiting.join operand).unlined := by
  induction lefts generalizing operand with
  | nil => rfl
  | cons waiting lefts ih => exact ih (waiting.join operand)

@[simp] theorem applySigns_unlined (signs : List Token) (operand : Expr) :
    applySigns (signs.map Token.unlined) operand.unlined =
      (applySigns signs operand).unlined := by
  induction signs generalizing operand with
  | nil => rfl
  | cons sign signs ih => exact ih (.unary sign operand)

namespace Place

variable (place : Place) (token stop : Token) (tokens : List Token)

theorem step_unlined :
    place.unlined.step token.unlined = (place.step token).map unlined := by
  cases place with
  | beforeOperand lefts signs outers =>
      rw [unlined, step, step, Token.unlined_kind, Token.unlined_operand?]
      split
      next sign => rfl
      next =>
        split
        next opening => rfl
        next =>
          cases token.operand? with
          | none => rfl
          | some value =>
              simp only [Except.map, unlined, ← applySigns_unlined]
              rfl
  | behindOperand lefts operand outers =>
      simp only [unlined, step]
      rw [Token.unlined_kind]
      cases token.kind.tightness? with
      | some tightness =>
          simp only [joinTighter_unlined]
          rfl
      | none =>
          cases outers with
          | nil => rfl
          | cons outer outers =>
              simp only [List.map_cons]
              split
              next closing =>
                simp only [foldl_join_unlined, Except.map, unlined, ← applySigns_unlined]
                rfl
              next => rfl

theorem finish_unlined : place.unlined.finish = place.finish.map Expr.unlined := by
  cases place with
  | beforeOperand => rfl
  | behindOperand lefts operand outers =>
      cases outers with
      | nil => exact congrArg Except.ok (foldl_join_unlined lefts operand)
      | cons outer outers => rfl

theorem read_unlined :
    (place.unlined.read stop.unlined (tokens.map Token.unlined)).1 =
      ((place.read stop tokens).1.map Expr.unlined).mapError SyntaxError.unlined := by
  induction tokens generalizing place with
  | nil =>
      rw [List.map_nil, read, read, finish_unlined]
      cases place.finish <;> rfl
  | cons token tokens ih =>
      rw [List.map_cons, read, read, step_unlined]
      cases place.step token with
      | error expectation => rfl
      | ok next => exact ih next

end Place

theorem Parser.parse_unlined (parser : Parser) :
    parser.unlined.parse.1 = (parser.parse.1.map Expr.unlined).mapError SyntaxError.unlined :=
  (Place.beforeOperand [] [] []).read_unlined parser.stop parser.remaining

/-- What is to be parsed of some tokens, and where it ends, depends on no line. -/
theorem Parser.ofTokens_unlined (tokens : List Token) :
    (ofTokens tokens).unlined =
      { remaining := (tokens.map Token.unlined).takeWhile (·.kind != .eof)
        stop := ((tokens.map Token.unlined).find? (·.kind == .eof)).getD (Token.endAt 0) } := by
  rw [unlined, ofTokens, List.takeWhile_map, List.find?_map]
  simp only [Function.comp_def, Token.unlined_kind]
  cases tokens.find? (·.kind == .eof) <;> rfl

/-! ## Evaluation and logs without lines -/

def Diagnostic.unlined (diagnostic : Diagnostic) : Diagnostic := { diagnostic with line := 0 }

def Log.unlined (log : Log) : Log :=
  { log with diagnostics := log.diagnostics.map Diagnostic.unlined }

@[simp] theorem Log.report_unlined (log : Log) (diagnostic : Diagnostic) :
    log.unlined.report diagnostic.unlined = (log.report diagnostic).unlined := by
  simp only [report, unlined, List.map_append, List.map_singleton]
  rfl

@[simp] theorem Expr.toText_unlined (expr : Expr) : expr.unlined.toText = expr.toText := by
  induction expr with
  | literal value => rfl
  | grouping inner ih => rw [unlined, toText, toText, ih]
  | unary operator operand ih => rw [unlined, toText, toText, ih]; rfl
  | binary operator left right leftIH rightIH =>
      rw [unlined, toText, toText, leftIH, rightIH]
      rfl

theorem Expr.eval_unlined (expr : Expr) :
    expr.unlined.eval = expr.eval.mapError EvalError.unlined := by
  rw [eval_eq_locate, eval_eq_locate, locate_unlined, mapError_mapError, mapError_mapError]
  rfl

theorem RuntimeError.unlined_diagnostic (error : RuntimeError) :
    ({ error with operator := error.operator.unlined } : RuntimeError).diagnostic =
      error.diagnostic.unlined := rfl

@[simp] theorem SyntaxError.unlined_diagnostic (error : SyntaxError) :
    error.unlined.diagnostic = error.diagnostic.unlined := rfl

namespace Session

/-- What a stage returns and reports, without lines. -/
def unlined (parsed : Option Expr × Log) : Option Expr × Log :=
  (parsed.1.map Expr.unlined, parsed.2.unlined)

theorem parseTokens_unlined (log : Log) (tokens : List Token) :
    unlined (parseTokens log tokens) =
      match (Parser.ofTokens tokens).unlined.parse.1 with
      | .ok expr => (some expr, log.unlined)
      | .error error => (none, log.unlined.report error.diagnostic) := by
  rw [Parser.parse_unlined, parseTokens]
  cases (Parser.ofTokens tokens).parse.1 with
  | ok expr => rfl
  | error error =>
      simp only [Except.map, Except.mapError, SyntaxError.unlined_diagnostic, Log.report_unlined]
      rfl

theorem parseTokens_congr (log : Log) {left right : List Token}
    (same : left.map Token.unlined = right.map Token.unlined) :
    unlined (parseTokens log left) = unlined (parseTokens log right) := by
  rw [parseTokens_unlined, parseTokens_unlined, Parser.ofTokens_unlined,
    Parser.ofTokens_unlined, same]

theorem interpret_unlined (log : Log) (expr : Expr) :
    interpret log.unlined expr.unlined =
      (interpret log expr).map fun outcome => (outcome.1, outcome.2.unlined) := by
  rw [interpret, interpret, Expr.eval_unlined]
  cases expr.eval with
  | ok value => rfl
  | error error =>
      cases error with
      | misplaced operator => rfl
      | runtime error =>
          simp only [Except.mapError, EvalError.unlined, RuntimeError.unlined_diagnostic,
            Log.report_unlined, Except.map]

end Session

/-! ## Texts of the same tokens -/

/-- What a text is scanned to is a well-formed token or a mark of the end. -/
def Token.Scanned (token : Token) : Prop :=
  token.WellFormed ∨ ∃ line, token = Token.endAt line

theorem Scan.tokens_scanned (source : String) :
    ∀ token ∈ (ofSource source).tokens, token.Scanned := by
  obtain ⟨words, line, concat, wellFormed⟩ := tokens_concat source
  rw [concat, List.forall_mem_append, List.forall_mem_singleton]
  exact ⟨fun word member => .inl (wellFormed word member), .inr ⟨line, rfl⟩⟩

/-- The kind and the lexeme of a scanned token tell all of it but its line. -/
theorem Token.Scanned.unlined_eq {left right : Token} (leftScanned : left.Scanned)
    (rightScanned : right.Scanned) (kind : left.kind = right.kind)
    (lexeme : left.lexeme = right.lexeme) : left.unlined = right.unlined := by
  rcases leftScanned with leftForm | ⟨line, rfl⟩
  · rcases rightScanned with rightForm | ⟨line, rfl⟩
    · obtain ⟨leftKind, leftLexeme, leftLiteral, leftLine⟩ := left
      cases kind
      cases lexeme
      have literal := (leftForm.unique rightForm).2
      cases literal
      rfl
    · exact absurd kind leftForm.kind_ne_eof
  · rcases rightScanned with rightForm | ⟨other, rfl⟩
    · exact absurd kind.symm rightForm.kind_ne_eof
    · rfl

theorem Token.map_unlined_eq {left right : List Token}
    (leftScanned : ∀ token ∈ left, token.Scanned)
    (rightScanned : ∀ token ∈ right, token.Scanned)
    (agree : left.map (fun token => (token.kind, token.lexeme)) =
      right.map fun token => (token.kind, token.lexeme)) :
    left.map unlined = right.map unlined := by
  induction left generalizing right with
  | nil =>
      rw [List.map_nil, eq_comm, List.map_eq_nil_iff] at agree
      rw [agree]
  | cons first left ih =>
      obtain ⟨other, rest, rfl, same, restSame⟩ := List.map_eq_cons_iff.mp agree.symm
      obtain ⟨kind, lexeme⟩ := Prod.mk.inj same
      rw [List.forall_mem_cons] at leftScanned rightScanned
      rw [List.map_cons, List.map_cons, ih leftScanned.2 rightScanned.2 restSame.symm,
        leftScanned.1.unlined_eq rightScanned.1 kind.symm lexeme.symm]

namespace Scan

/-- A text that nothing is reported about consists of its tokens, and of blanks and comments
between them. -/
theorem divides_of_silent {source : String} (silent : (ofSource source).diagnostics = []) :
    ∃ pieces, Piece.Divides source.toList pieces ∧
      pieces.filterMap Piece.written? ++ [Token.endAt 0] =
        (ofSource source).tokens.map Token.unlined ∧
      pieces.filterMap Piece.complaint? = [] := by
  refine ⟨_, (Cursor.start source).pieces_divide, (tokens_unlined source).symm, ?_⟩
  have messages := diagnostics_message source
  rw [silent] at messages
  exact messages.symm

end Scan

namespace Session

theorem parse_congr {left right : String}
    (leftSilent : (Scan.ofSource left).diagnostics = [])
    (rightSilent : (Scan.ofSource right).diagnostics = [])
    (same : (Scan.ofSource left).tokens.map Token.unlined =
      (Scan.ofSource right).tokens.map Token.unlined) (log : Log) :
    unlined (parse log left) = unlined (parse log right) := by
  rw [parse, parse, leftSilent, rightSilent, Log.reportAll, List.foldl_nil]
  split
  next => rfl
  next => exact parseTokens_congr log same

/-- What a text is run to is, up to lines, decided by what it is parsed to up to lines. -/
theorem run_unlined (log : Log) (source : String) :
    (run log source).map (fun outcome => (outcome.1, outcome.2.unlined)) =
      match unlined (parse log source) with
      | (none, log) => .ok (none, log)
      | (some expr, log) => interpret log expr := by
  rw [run, unlined]
  cases parse log source with
  | mk parsed later =>
      cases parsed with
      | none => rfl
      | some expr => exact (interpret_unlined later expr).symm

theorem run_congr {left right : String}
    (same : unlined (parse .empty left) = unlined (parse .empty right)) :
    ∃ output leftLog rightLog, run .empty left = .ok (output, leftLog) ∧
      run .empty right = .ok (output, rightLog) ∧ leftLog.unlined = rightLog.unlined := by
  obtain ⟨⟨output, leftLog⟩, leftRun⟩ := run_eq_ok .empty left
  obtain ⟨⟨other, rightLog⟩, rightRun⟩ := run_eq_ok .empty right
  have alike := run_unlined .empty left
  rw [same, ← run_unlined, leftRun, rightRun] at alike
  obtain ⟨rfl, logs⟩ := Prod.mk.inj (Except.ok.inj alike)
  exact ⟨output, leftLog, rightLog, leftRun, rightRun, logs⟩

/-- Layout changes no result. Two texts that nothing is reported about, and whose tokens
have the same kinds and lexemes, differ only in blanks and comments between these tokens.
They are run to the same output and parsed to trees that are the same and printed the same
up to lines, and what is reported about them differs at most in its lines. -/
theorem run_layout {left right : String}
    (leftSilent : (Scan.ofSource left).diagnostics = [])
    (rightSilent : (Scan.ofSource right).diagnostics = [])
    (agree : (Scan.ofSource left).tokens.map (fun token => (token.kind, token.lexeme)) =
      (Scan.ofSource right).tokens.map fun token => (token.kind, token.lexeme)) :
    (∃ leftPieces rightPieces, Piece.Divides left.toList leftPieces ∧
      Piece.Divides right.toList rightPieces ∧
      leftPieces.filterMap Piece.written? = rightPieces.filterMap Piece.written? ∧
      leftPieces.filterMap Piece.complaint? = [] ∧
      rightPieces.filterMap Piece.complaint? = []) ∧
    (∃ output leftLog rightLog, run .empty left = .ok (output, leftLog) ∧
      run .empty right = .ok (output, rightLog) ∧ leftLog.unlined = rightLog.unlined) ∧
    (∃ leftTree rightTree leftLog rightLog, parse .empty left = (leftTree, leftLog) ∧
      parse .empty right = (rightTree, rightLog) ∧
      leftTree.map Expr.unlined = rightTree.map Expr.unlined ∧
      leftTree.map Expr.toText = rightTree.map Expr.toText ∧
      leftLog.unlined = rightLog.unlined) := by
  have tokens := Token.map_unlined_eq (Scan.tokens_scanned left) (Scan.tokens_scanned right)
    agree
  have parsed := parse_congr leftSilent rightSilent tokens .empty
  refine ⟨?_, run_congr parsed, _, _, _, _, rfl, rfl, ?_⟩
  · obtain ⟨leftPieces, leftDivides, leftTokens, leftSilence⟩ :=
      Scan.divides_of_silent leftSilent
    obtain ⟨rightPieces, rightDivides, rightTokens, rightSilence⟩ :=
      Scan.divides_of_silent rightSilent
    have written := (leftTokens.trans tokens).trans rightTokens.symm
    exact ⟨leftPieces, rightPieces, leftDivides, rightDivides,
      List.append_cancel_right written, leftSilence, rightSilence⟩
  · obtain ⟨trees, logs⟩ := Prod.mk.inj parsed
    refine ⟨trees, ?_, logs⟩
    have printed := congrArg (Option.map Expr.toText) trees
    simp only [Option.map_map, Function.comp_def, Expr.toText_unlined] at printed
    exact printed

/-- A type error is reported on another line if the same tokens are laid out otherwise. -/
theorem run_layout_comparison :
    let left := "(1.5\n< // less\n\"a\")"
    let right := "(1.5</* less */\"a\")"
    (Scan.ofSource left).diagnostics = [] ∧ (Scan.ofSource right).diagnostics = [] ∧
      ((Scan.ofSource left).tokens.map (fun token => (token.kind, token.lexeme)) =
        (Scan.ofSource right).tokens.map fun token => (token.kind, token.lexeme)) ∧
      ∃ output leftLog rightLog, run .empty left = .ok (output, leftLog) ∧
        run .empty right = .ok (output, rightLog) ∧ leftLog.unlined = rightLog.unlined := by
  intro left right
  have leftSilent : (Scan.ofSource left).diagnostics = [] := by decide +kernel
  have rightSilent : (Scan.ofSource right).diagnostics = [] := by decide +kernel
  have agree : (Scan.ofSource left).tokens.map (fun token => (token.kind, token.lexeme)) =
      (Scan.ofSource right).tokens.map fun token => (token.kind, token.lexeme) := by
    decide +kernel
  exact ⟨leftSilent, rightSilent, agree, (run_layout leftSilent rightSilent agree).2.1⟩

end Session

end Reckon
