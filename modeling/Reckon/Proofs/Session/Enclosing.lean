import Reckon.Proofs.Session.Ending
import Reckon.Proofs.Token.Onward

/-!
# Parentheses around a text

A text that is parsed on its own may be put between other marks. Its tokens are the same
there, whatever it ends in, if a line feed follows it, and the parser stops at the closing
parenthesis. So any number of parentheses around a text adds as many groups to its tree and
changes nothing that the text is run to.
-/

namespace Reckon

variable {source : String} {front back : List Piece} {opening closing : List Char}

/-! ## Repeated marks -/

namespace Piece

/-- A mark that is read alike before itself and before what is left is read any number of
times. -/
theorem Reads.replicate {mark : Char} {piece : Piece} {left : List Char}
    (alike : ∀ further, read mark (List.replicate further mark ++ left) = piece)
    (alone : piece.text = [mark]) (count : Nat) :
    Reads (List.replicate count mark ++ left) (List.replicate count piece) left := by
  induction count with
  | zero => exact .done
  | succ count ih =>
      have split : mark :: (List.replicate count mark ++ left) =
          (read mark (List.replicate count mark ++ left)).text ++
            (List.replicate count mark ++ left) := by
        rw [alike, alone]
        rfl
      have further := Reads.more split ih
      rw [alike] at further
      exact further

theorem count_replicate_mark {mark : Char} (visible : mark ≠ '\n') (count : Nat) :
    (List.replicate count mark).count '\n' = 0 := by
  rw [List.count_replicate, if_neg (by simpa using visible)]

@[simp] theorem flatMap_text_replicate (kind : Kind) (mark : Char) (count : Nat) :
    (List.replicate count (token kind [mark] none)).flatMap Piece.text =
      List.replicate count mark := by
  simp [List.flatMap_replicate, Piece.text]

theorem words_replicate {kind : Kind} {mark : Char} (visible : mark ≠ '\n') (count : Nat) :
    words (List.replicate count (.token kind [mark] none)) =
      List.replicate count ⟨kind, String.ofList [mark], none, 1⟩ := by
  induction count with
  | zero => rfl
  | succ count ih =>
      rw [List.replicate_succ', words_concat, ih, flatMap_text_replicate, tokenAt?, lineBehind,
        count_replicate_mark visible, List.replicate_succ']
      rfl

end Piece

/-! ## A text between other marks -/

namespace Scan

/-- A text on lines of its own, with something before it and something else below. -/
def between (opening closing : List Char) (source : String) : String :=
  String.ofList opening ++ source ++ "\n" ++ String.ofList closing

@[simp] theorem toList_between :
    (between opening closing source).toList =
      opening ++ (source.toList ++ '\n' :: closing) := by
  simp [between]

/-- Behind marks that are read alike before any text, a text that nothing is reported about
is read as it is alone, up to the line feed behind it. -/
theorem reads_between (opens : ∀ rest, Piece.Reads (opening ++ rest) front rest)
    (silent : (ofSource source).diagnostics = []) :
    Piece.Reads (between opening closing source).toList
      (front ++ ((Cursor.start source).pieces.map Prod.snd ++ [.blank '\n'])) closing := by
  have closed : ∀ piece ∈ (Cursor.start source).pieces.map Prod.snd, ¬piece.IsOpen := by
    apply closed_of_diagnostics
    rw [silent]
    exact List.forall_mem_nil _
  have lineFeed : Piece.Reads ('\n' :: closing) [.blank '\n'] closing := .more rfl .done
  rw [toList_between]
  exact (opens _).append (((Cursor.start source).reads.append_lineBreak closing closed).append
    lineFeed)

/-- Nothing is reported about a text if nothing is wrong with its pieces. -/
theorem silent_iff (reads : Piece.Reads source.toList front []) :
    (ofSource source).diagnostics = [] ↔ ∀ piece ∈ front, piece.complaint? = none := by
  have all : (Cursor.start source).pieces.map Prod.snd = front := reads.pieces_eq rfl
  rw [← List.map_eq_nil_iff, diagnostics_message, all, List.filterMap_eq_nil_iff]

/-- The tokens of the text stand between those of the marks, on the lines that they stand
on. -/
theorem tokens_between (opens : ∀ rest, Piece.Reads (opening ++ rest) front rest)
    (closes : Piece.Reads closing back []) (silent : (ofSource source).diagnostics = []) :
    ∃ words line, (ofSource source).tokens = words ++ [Token.endAt line] ∧
      (ofSource (between opening closing source)).tokens =
        Piece.words front ++ words.map (Token.down (opening.count '\n')) ++
          (Piece.words back ++ [Token.endAt (lineBehind closing)]).map
            (Token.down (opening.count '\n' + line)) := by
  have reads := (Cursor.start source).reads
  refine ⟨_, _, tokens_of_reads_all reads, ?_⟩
  have opened : front.flatMap Piece.text = opening := by
    simpa using (opens []).flatMap_text
  have text : (front ++ ((Cursor.start source).pieces.map Prod.snd ++ [Piece.blank '\n'])).flatMap
      Piece.text = opening ++ (source.toList ++ ['\n']) := by
    rw [List.flatMap_append, List.flatMap_append, opened,
      (Cursor.start source).pieces_divide.flatMap_text]
    rfl
  have lines : (opening ++ (source.toList ++ ['\n'])).count '\n' =
      opening.count '\n' + lineBehind source.toList := by
    rw [List.count_append, List.count_append, lineBehind, Nat.add_comm 1]
    rfl
  have closesText : Piece.Reads (String.ofList closing).toList back [] := by
    rwa [String.toList_ofList]
  rw [tokens_of_reads (reads_between opens silent), tokens_of_reads_all closesText,
    String.toList_ofList, Piece.words_append, Piece.words_concat, opened, text, lines]
  have nothing (before : List Char) : (Piece.blank '\n').tokenAt? before = none := rfl
  rw [nothing, Option.toList_none, List.append_nil]

theorem silent_between (opens : ∀ rest, Piece.Reads (opening ++ rest) front rest)
    (closes : Piece.Reads closing back []) (silent : (ofSource source).diagnostics = [])
    (marks : ∀ piece ∈ front ++ back, piece.complaint? = none) :
    (ofSource (between opening closing source)).diagnostics = [] := by
  have inside := (silent_iff (Cursor.start source).reads).mp silent
  refine (silent_iff ((reads_between opens silent).append closes)).mpr fun piece member => ?_
  simp only [List.mem_append, List.mem_singleton] at member
  rcases member with (isBefore | isInside | rfl) | isBelow
  · exact marks piece (List.mem_append_left _ isBefore)
  · exact inside piece isInside
  · rfl
  · exact marks piece (List.mem_append_right _ isBelow)

end Scan

/-! ## Groups -/

theorem Derives.enclosed {opening closing : Token} {tokens : List Token} {expr : Expr}
    (opens : opening.kind = .leftParen) (closes : closing.kind = .rightParen)
    (derives : Derives .expression tokens expr) (count : Nat) :
    Derives .expression
      (List.replicate count opening ++ tokens ++ List.replicate count closing)
      (Nat.repeat Expr.grouping count expr) := by
  induction count with
  | zero => simpa [Nat.repeat] using derives
  | succ count ih =>
      have grouped : Derives .expression _ (.grouping _) :=
        (Derives.group opens closes ih).loosen (Nat.zero_le _)
      rw [List.replicate_succ, List.replicate_succ', Nat.repeat]
      simpa using grouped

@[simp] theorem Expr.eval_grouped (count : Nat) (expr : Expr) :
    (Nat.repeat Expr.grouping count expr).eval = expr.eval := by
  induction count with
  | zero => rfl
  | succ count ih => exact ih

theorem Expr.toText_grouped (count : Nat) (expr : Expr) :
    (Nat.repeat Expr.grouping count expr).toText =
      Nat.repeat (fun text => "(group " ++ text ++ ")") count expr.toText := by
  induction count with
  | zero => rfl
  | succ count ih => rw [Nat.repeat, Nat.repeat, toText, ih]

namespace Session

/-- A text within a number of parentheses. -/
def enclosed (count : Nat) (source : String) : String :=
  Scan.between (List.replicate count '(') (List.replicate count ')') source

theorem silent_of_parse {expr : Expr} (parsed : (parse .empty source).1 = some expr) :
    (Scan.ofSource source).diagnostics = [] := by
  by_contra faulty
  rw [parse_of_faulty faulty] at parsed
  cases parsed

theorem takeWhile_of_concat {words : List Token} {line : Nat}
    (concat : (Scan.ofSource source).tokens = words ++ [Token.endAt line]) :
    (Scan.ofSource source).tokens.takeWhile (·.kind != .eof) = words := by
  obtain ⟨others, last, same, wellFormed⟩ := Scan.tokens_concat source
  obtain ⟨rfl, -⟩ := List.append_inj' (concat.symm.trans same) rfl
  have more : ∀ token ∈ words, token.kind ≠ .eof :=
    fun token member => (wellFormed token member).kind_ne_eof
  rw [concat]
  exact congrArg Parser.remaining (Parser.ofTokens_append more rfl [])

theorem derives_of_parse {expr : Expr} {words : List Token} {line : Nat}
    (concat : (Scan.ofSource source).tokens = words ++ [Token.endAt line])
    (parsed : (parse .empty source).1 = some expr) : Derives .expression words expr := by
  rw [parse_of_silent (silent_of_parse parsed)] at parsed
  rw [← takeWhile_of_concat concat]
  exact (parseTokens_fst_eq_some_iff _ _ _).mp parsed

theorem parse_of_derives {expr : Expr} {words : List Token} {line : Nat}
    (silent : (Scan.ofSource source).diagnostics = [])
    (concat : (Scan.ofSource source).tokens = words ++ [Token.endAt line])
    (derives : Derives .expression words expr) : parse .empty source = (some expr, .empty) := by
  rw [parse_of_silent silent]
  apply parseTokens_of_derives
  rwa [takeWhile_of_concat concat]

/-- A text that is parsed to a tree is run to the value of the tree or to its type error. -/
theorem run_of_parse {expr : Expr} (parsed : parse .empty source = (some expr, .empty)) :
    ∃ outcome, run .empty source = .ok outcome ∧
      ((∃ value, expr.eval = .ok value ∧ outcome = (some value.toText, .empty)) ∨
        ∃ error, expr.eval = .error (.runtime error) ∧
          outcome = (none, Log.empty.report error.diagnostic)) := by
  rw [run, parsed]
  rcases (parse_wellPlaced parsed).eval_cases with ⟨value, equal⟩ | ⟨error, equal⟩
  · exact ⟨_, by simp only [interpret, equal], .inl ⟨value, equal, rfl⟩⟩
  · exact ⟨_, by simp only [interpret, equal], .inr ⟨error, equal, rfl⟩⟩

/-- The tokens of a text in parentheses, and that nothing is reported about them. -/
theorem scan_enclosed (silent : (Scan.ofSource source).diagnostics = []) (count : Nat) :
    (Scan.ofSource (enclosed count source)).diagnostics = [] ∧
      ∃ words line, (Scan.ofSource source).tokens = words ++ [Token.endAt line] ∧
        (Scan.ofSource (enclosed count source)).tokens =
          List.replicate count ⟨.leftParen, "(", none, 1⟩ ++ words ++
            List.replicate count ⟨.rightParen, ")", none, line + 1⟩ ++
              [Token.endAt (line + 1)] := by
  have opens (rest : List Char) : Piece.Reads (List.replicate count '(' ++ rest)
      (List.replicate count (.token .leftParen ['('] none)) rest :=
    .replicate (fun _ => rfl) rfl count
  have closes : Piece.Reads (List.replicate count ')')
      (List.replicate count (.token .rightParen [')'] none)) [] := by
    have reads : Piece.Reads (List.replicate count ')' ++ []) _ [] :=
      .replicate (fun _ => rfl) rfl count
    rwa [List.append_nil] at reads
  constructor
  · apply Scan.silent_between opens closes silent
    simp [Piece.complaint?, or_imp, forall_and]
  · obtain ⟨words, line, tokens, around⟩ := Scan.tokens_between opens closes silent
    refine ⟨words, line, tokens, ?_⟩
    rw [enclosed, around, Piece.words_replicate (by decide), Piece.words_replicate (by decide),
      lineBehind, Piece.count_replicate_mark (by decide), Piece.count_replicate_mark (by decide)]
    have same : words.map (Token.down 0) = words := List.map_id words
    simp [same, Token.down, Token.endAt, Nat.add_comm]

/-- Parentheses around a text are transparent. A text that is parsed may be put into any
number of them, with a line feed before the closing ones. Nothing is reported about it then,
the tokens inside are the same on the same lines, and the tree is the same in as many groups.
So the text is run to the same output, or to the same runtime error at the same operator. -/
theorem parse_enclosed {expr : Expr} (parsed : (parse .empty source).1 = some expr) (count : Nat) :
    let tree := Nat.repeat Expr.grouping count expr
    (∃ words line, (Scan.ofSource source).tokens = words ++ [Token.endAt line] ∧
      (Scan.ofSource (enclosed count source)).tokens =
        List.replicate count ⟨.leftParen, "(", none, 1⟩ ++ words ++
          List.replicate count ⟨.rightParen, ")", none, line + 1⟩ ++ [Token.endAt (line + 1)]) ∧
      parse .empty (enclosed count source) = (some tree, .empty) ∧
      tree.toText = Nat.repeat (fun text => "(group " ++ text ++ ")") count expr.toText ∧
      tree.eval = expr.eval ∧
      ∃ outcome, run .empty source = .ok outcome ∧
        run .empty (enclosed count source) = .ok outcome ∧
        ((∃ value, expr.eval = .ok value ∧ outcome = (some value.toText, .empty)) ∨
          ∃ error, expr.eval = .error (.runtime error) ∧
            outcome = (none, Log.empty.report error.diagnostic)) := by
  intro tree
  have silent := silent_of_parse parsed
  obtain ⟨silentAround, words, line, tokens, around⟩ := scan_enclosed silent count
  have derives := derives_of_parse tokens parsed
  have parsedAlone : parse .empty source = (some expr, .empty) :=
    parse_of_derives silent tokens derives
  have parsedAround : parse .empty (enclosed count source) = (some tree, .empty) :=
    parse_of_derives silentAround around (derives.enclosed rfl rfl count)
  have same : run .empty (enclosed count source) = run .empty source := by
    rw [run, run, parsedAround, parsedAlone]
    simp only [interpret, tree, Expr.eval_grouped]
  obtain ⟨outcome, ran, ends⟩ := run_of_parse parsedAlone
  exact ⟨⟨words, line, tokens, around⟩, parsedAround, expr.toText_grouped count,
    expr.eval_grouped count, outcome, ran, same.trans ran, ends⟩

/-- A comment at the end of a text does not swallow the parentheses behind it. -/
theorem parse_enclosed_comment :
    let source := "\"a\" // one\n<\"b\"//)"
    let expr : Expr := .binary ⟨.less, "<", none, 2⟩ (.literal (.text "a")) (.literal (.text "b"))
    (parse .empty source).1 = some expr ∧
      parse .empty (enclosed 2 source) = (some (.grouping (.grouping expr)), .empty) ∧
      run .empty (enclosed 2 source) = run .empty source := by
  intro source expr
  have parsed : (parse .empty source).1 = some expr := by decide +kernel
  obtain ⟨-, parsedAround, -, -, outcome, ran, ranAround, -⟩ := parse_enclosed parsed 2
  exact ⟨parsed, parsedAround, ranAround.trans ran.symm⟩

end Session

end Reckon
