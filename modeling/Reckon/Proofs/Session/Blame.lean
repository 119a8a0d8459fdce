import Reckon.Proofs.Expr.Fault
import Reckon.Proofs.Expr.Reading
import Reckon.Proofs.Token.Line
import Reckon.Proofs.Token.Spaced

/-!
# What a diagnostic points to

A text is scanned, parsed and evaluated, and each stage may find a fault. This module
follows the places of tokens through all stages: a syntax error is reported on the line
of the token that the parser stops at, and a type error on that of the operator that
evaluation fails at.
-/

namespace Reckon

/-! ## The tokens of a tree -/

/-- The tokens of a tree from left to right, split at the operator at the end of a way
from the root. -/
inductive Expr.SplitsAt : Expr → List Branch → List Token → Token → List Token → Prop where
  | grouping {opening closing operator : Token} {inner : Expr} {path : List Branch}
      {before after : List Token} :
      opening.kind = .leftParen → closing.kind = .rightParen →
      SplitsAt inner path before operator after →
      SplitsAt (.grouping inner) path (opening :: before) operator (after ++ [closing])
  | sign {operator : Token} {operand : Expr} {tokens : List Token} :
      operand.Yields tokens → SplitsAt (.unary operator operand) [] [] operator tokens
  | operand {sign operator : Token} {operand : Expr} {path : List Branch}
      {before after : List Token} :
      SplitsAt operand path before operator after →
      SplitsAt (.unary sign operand) (.operand :: path) (sign :: before) operator after
  | operator {operator : Token} {left right : Expr} {before after : List Token} :
      left.Yields before → right.Yields after →
      SplitsAt (.binary operator left right) [] before operator after
  | left {root operator : Token} {left right : Expr} {path : List Branch}
      {before after tokens : List Token} :
      SplitsAt left path before operator after → right.Yields tokens →
      SplitsAt (.binary root left right) (.left :: path) before operator
        (after ++ root :: tokens)
  | right {root operator : Token} {left right : Expr} {path : List Branch}
      {before after tokens : List Token} :
      left.Yields tokens → SplitsAt right path before operator after →
      SplitsAt (.binary root left right) (.right :: path) (tokens ++ root :: before)
        operator after

theorem Expr.Yields.splitsAt {expr : Expr} {tokens : List Token} (yields : expr.Yields tokens)
    {path : List Branch} {operator : Token} (found : expr.operatorAt? path = some operator) :
    ∃ before after, tokens = before ++ operator :: after ∧
      expr.SplitsAt path before operator after := by
  induction yields generalizing path with
  | literal => cases path <;> cases found
  | @grouping opening closing _ _ isOpening isClosing _ ih =>
      rw [operatorAt?] at found
      obtain ⟨before, after, rfl, splits⟩ := ih found
      exact ⟨opening :: before, after ++ [closing], by simp,
        .grouping isOpening isClosing splits⟩
  | @unary sign tokens operand yields ih =>
      match path with
      | [] =>
          cases found
          exact ⟨[], tokens, rfl, .sign yields⟩
      | .operand :: path =>
          obtain ⟨before, after, rfl, splits⟩ := ih found
          exact ⟨sign :: before, after, rfl, .operand splits⟩
      | .left :: _ | .right :: _ => cases found
  | @binary root leftTokens rightTokens left right leftYields rightYields leftIH rightIH =>
      match path with
      | [] =>
          cases found
          exact ⟨leftTokens, rightTokens, rfl, .operator leftYields rightYields⟩
      | .left :: path =>
          obtain ⟨before, after, rfl, splits⟩ := leftIH found
          exact ⟨before, after ++ root :: rightTokens, by simp, .left splits rightYields⟩
      | .right :: path =>
          obtain ⟨before, after, rfl, splits⟩ := rightIH found
          exact ⟨leftTokens ++ root :: before, after, by simp, .right leftYields splits⟩
      | .operand :: _ => cases found

/-! ## Outcomes at their places -/

namespace Session

/-- How the tokens at some spots are parsed under a log. Nothing is parsed under a log
with an error. An expression is derived from all tokens but the mark of the end. A token
that is refused is the one that the parser has before it, and it is reported on its line. -/
inductive ParsesAt (spots : List Spot) (log : Log) : Option Expr × Log → Prop where
  | skipped : log.hasError = true → ParsesAt spots log (none, log)
  | accepted {expr : Expr} :
      log.hasError = false → Derives .expression (spots.map Spot.token).dropLast expr →
      ParsesAt spots log (some expr, log)
  | refused {expectation : Expectation} {parser : Parser} {front back : List Spot}
      {spot : Spot} :
      log.hasError = false →
      (Parser.ofTokens (spots.map Spot.token)).parse =
        (.error ⟨expectation, spot.token⟩, parser) →
      spots = front ++ spot :: back →
      parser.remaining ++ [parser.stop] = (spot :: back).map Spot.token →
      ParsesAt spots log
        (none, log.report
          ⟨.syntactic, lineBehind spot.before, spot.token.location, expectation.message⟩)

/-- How what was parsed of the tokens at some spots is run. A type error is reported on
the line of the operator that evaluation fails at. -/
inductive RunsAt (spots : List Spot) :
    Option Expr × Log → Except MisplacedOperator (Option String × Log) → Prop where
  | unparsed {log : Log} : RunsAt spots (none, log) (.ok (none, log))
  | succeeded {log : Log} {expr : Expr} {value : Value} :
      expr.eval = .ok value → RunsAt spots (some expr, log) (.ok (some value.toText, log))
  | failed {log : Log} {expr : Expr} {path : List Branch} {error : TypeError}
      {front back : List Spot} {spot stop : Spot} :
      expr.locate = .error ⟨path, .runtime ⟨error, spot.token⟩⟩ →
      spots = front ++ spot :: back ++ [stop] →
      expr.SplitsAt path (front.map Spot.token) spot.token (back.map Spot.token) →
      RunsAt spots (some expr, log)
        (.ok (none, log.report ⟨.runtime, lineBehind spot.before, .unspecified, error.message⟩))

end Session

variable {spots : List Spot} {words : List Token} {stop : Token} {log : Log}

/-- The parser stops at one of the spots, and has the tokens from there on before it. -/
theorem Parser.parse_eq_error {expectation : Expectation} {token : Token} {left : Parser}
    (concat : spots.map Spot.token = words ++ [stop])
    (parsed : (Parser.mk words stop).parse = (.error ⟨expectation, token⟩, left)) :
    ∃ front spot back, spots = front ++ spot :: back ∧ spot.token = token ∧
      left.remaining ++ [left.stop] = (spot :: back).map Spot.token := by
  cases read : Place.read stop (.beforeOperand [] [] []) words with
  | mk result remaining =>
      simp only [Parser.parse, read] at parsed
      cases parsed
      obtain ⟨consumed, rfl, head⟩ := Place.read_eq_error read
      rw [List.append_assoc] at concat
      obtain ⟨front, rest, rfl, -, ahead⟩ := List.map_eq_append_iff.mp concat
      cases rest with
      | nil =>
          cases remaining <;> cases ahead
      | cons spot back =>
          refine ⟨front, spot, back, rfl, ?_, ahead.symm⟩
          have first := congrArg List.head? ahead
          rw [List.head?_append, List.map_cons, List.head?_cons] at first
          refine Eq.trans ?_ head
          cases remaining <;> exact Option.some.inj first

theorem Session.parseTokens_parsesAt (concat : spots.map Spot.token = words ++ [stop])
    (more : ∀ token ∈ words, token.kind ≠ .eof) (ends : stop.kind = .eof)
    (lines : ∀ spot ∈ spots, spot.token.line = lineBehind spot.before)
    (clean : log.hasError = false) :
    ParsesAt spots log (parseTokens log (spots.map Spot.token)) := by
  have parser := Parser.ofTokens_append more ends []
  cases parsed : (Parser.mk words stop).parse with
  | mk result left =>
      have whole := parsed
      rw [← parser, ← concat] at whole
      rw [parseTokens, whole]
      cases result with
      | ok expr =>
          have read : (Place.read stop (.beforeOperand [] [] []) words).1 = .ok expr :=
            congrArg Prod.fst parsed
          apply ParsesAt.accepted clean
          rw [concat, List.dropLast_concat]
          exact (Place.read_eq_ok_iff stop).mp read
      | error error =>
          obtain ⟨expectation, token⟩ := error
          obtain ⟨front, spot, back, split, rfl, ahead⟩ := Parser.parse_eq_error concat parsed
          have line := lines spot (split ▸ List.mem_append_right _ List.mem_cons_self)
          simp only [SyntaxError.diagnostic, line]
          exact .refused clean whole split ahead

theorem Session.interpret_runsAt {expr : Expr} (concat : spots.map Spot.token = words ++ [stop])
    (derives : Derives .expression words expr)
    (lines : ∀ spot ∈ spots, spot.token.line = lineBehind spot.before) :
    RunsAt spots (some expr, log) (interpret log expr) := by
  obtain ⟨stratified, yields⟩ := derives.shape
  cases located : expr.locate with
  | ok value =>
      have value : expr.eval = .ok value := by rw [Expr.eval_eq_locate, located]; rfl
      rw [interpret, value]
      exact .succeeded value
  | error fault =>
      obtain ⟨path, cause⟩ := fault
      obtain ⟨⟨error, operator⟩, rfl, found⟩ := stratified.wellPlaced.locate_error located
      have failed : expr.eval = .error (.runtime ⟨error, operator⟩) := by
        rw [Expr.eval_eq_locate, located]; rfl
      obtain ⟨before, after, rfl, splits⟩ := yields.splitsAt found
      obtain ⟨inner, last, rfl, innerTokens, lastToken⟩ := List.map_eq_append_iff.mp concat
      obtain ⟨front, rest, rfl, rfl, restTokens⟩ := List.map_eq_append_iff.mp innerTokens
      obtain ⟨spot, back, rfl, rfl, rfl⟩ := List.map_eq_cons_iff.mp restTokens
      obtain ⟨stop, rfl, -⟩ := List.map_eq_singleton_iff.mp lastToken
      have line := lines spot (by simp)
      rw [interpret, failed]
      simp only [RuntimeError.diagnostic, line]
      exact .failed located rfl splits

namespace Session

theorem parse_parsesAt (log : Log) (source : String) :
    ParsesAt (Scan.spots source) (log.reportAll (Scan.ofSource source).diagnostics)
      (parse log source) := by
  have tokens := Scan.tokens_eq_spots source
  obtain ⟨words, line, concat, wellFormed⟩ := Scan.tokens_concat source
  cases clean : (log.reportAll (Scan.ofSource source).diagnostics).hasError with
  | true =>
      rw [parse, if_pos clean]
      exact .skipped clean
  | false =>
      rw [parse, if_neg (by rw [clean]; decide), tokens]
      exact parseTokens_parsesAt (tokens.symm.trans concat)
        (fun token member => (wellFormed token member).kind_ne_eof) rfl
        (fun spot member => (Scan.spots_in source spot member).line) clean

theorem run_runsAt (log : Log) (source : String) :
    RunsAt (Scan.spots source) (parse log source) (run log source) := by
  have tokens := Scan.tokens_eq_spots source
  obtain ⟨words, line, concat, -⟩ := Scan.tokens_concat source
  have concat := tokens.symm.trans concat
  have parses := parse_parsesAt log source
  rw [run]
  generalize parse log source = parsed at parses ⊢
  cases parses with
  | skipped | refused => exact .unparsed
  | accepted _ derives =>
      rw [concat, List.dropLast_concat] at derives
      exact interpret_runsAt concat derives
        fun spot member => (Scan.spots_in source spot member).line

end Session

/-- Lines are attributed faithfully by all stages. The pieces of a source text divide it,
and every token that is scanned is written at its spot and has the line of its first
character. Every diagnostic is on the line of what is wrong, be it in the pieces of the
text, in the order of its tokens or in the operands of an operator. -/
theorem Session.faithful_lines (log : Log) (source : String) :
    let scan := Scan.ofSource source
    let spots := Scan.spots source
    Piece.Divides source.toList ((Cursor.start source).pieces.map Prod.snd) ∧
      scan.tokens = spots.map Spot.token ∧
      (∀ spot ∈ spots, spot.In source.toList) ∧
      (scan.diagnostics = (Scan.placed source).filterMap fun place =>
        place.2.diagnosticAt? source.toList place.1) ∧
      ParsesAt spots (log.reportAll scan.diagnostics) (parse log source) ∧
      RunsAt spots (parse log source) (run log source) := by
  exact ⟨(Cursor.start source).pieces_divide, Scan.tokens_eq_spots source,
    Scan.spots_in source, Scan.diagnostics_eq_placed source, parse_parsesAt log source,
    run_runsAt log source⟩

end Reckon
