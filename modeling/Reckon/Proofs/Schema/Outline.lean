import Reckon.Schema

/-!
# Outlines of generated code

Code in blocks is laid out line by line: a block is its header with a brace at the end, what is
in it, and a line with the closing brace. This module reads a text back into its blocks. The
braces at the ends of lines are enough for that; the indentation only has to be taken off.
-/

namespace Reckon.Schema

/-! ## Lines of a text -/

/-- A line without the spaces in front. -/
def unindented (line : List Char) : String :=
  String.ofList (line.dropWhile (· == ' '))

/-- The lines of a text in which every line is ended, without their indentation. -/
def textLines (text : String) : List String :=
  (text.toList.splitOn '\n').dropLast.map unindented

/-- A line that stands by itself: no line break is in it, and no space in front. -/
def Flush (line : String) : Prop :=
  '\n' ∉ line.toList ∧ line.toList.head? ≠ some ' '

theorem toList_indentLine (depth : Nat) (line : String) :
    ∃ spaces, (indentLine depth line).toList = List.replicate spaces ' ' ++ line.toList := by
  unfold indentLine
  split
  · exact ⟨0, rfl⟩
  · exact ⟨4 * depth, by rw [String.toList_append, indentation, String.toList_ofList]⟩

theorem unindented_append {line : String} (noSpace : line.toList.head? ≠ some ' ')
    (spaces : Nat) : unindented (List.replicate spaces ' ' ++ line.toList) = line := by
  have inFront : ∀ character ∈ List.replicate spaces ' ', (character == ' ') = true := by
    intro character member
    simp [List.eq_of_mem_replicate member]
  rw [unindented, List.dropWhile_append_of_pos inFront]
  cases text : line.toList with
  | nil => rw [String.toList_eq_nil_iff.1 text]; rfl
  | cons first rest =>
    have other : ¬ (first == ' ') = true := by
      rw [beq_iff_eq]
      rintro rfl
      exact noSpace (by rw [text]; rfl)
    rw [List.dropWhile_cons, if_neg other, ← text, String.ofList_toList]

theorem unindented_indentLine {line : String} (flush : Flush line) (depth : Nat) :
    unindented (indentLine depth line).toList = line := by
  obtain ⟨spaces, shape⟩ := toList_indentLine depth line
  rw [shape, unindented_append flush.2]

theorem splitOn_ended {line : String} (noBreak : '\n' ∉ line.toList) (behind : String) :
    (line ++ "\n" ++ behind).toList.splitOn '\n' =
      line.toList :: behind.toList.splitOn '\n' := by
  rw [String.toList_append, String.toList_append, List.append_assoc]
  exact List.splitOn_append_cons_self_of_not_mem noBreak _

theorem textLines_join {lines : List String} (flush : ∀ line ∈ lines, Flush line) (depth : Nat) :
    textLines (String.join ((indentFrom depth lines).map (· ++ "\n"))) = lines := by
  induction lines generalizing depth with
  | nil => rfl
  | cons line lines ih =>
    obtain ⟨flushLine, flushLines⟩ := List.forall_mem_cons.1 flush
    have noBreak : '\n' ∉ (indentLine (depthOf depth line) line).toList := by
      obtain ⟨spaces, shape⟩ := toList_indentLine (depthOf depth line) line
      rw [shape, List.mem_append, not_or]
      exact ⟨fun inSpaces => by simpa using List.eq_of_mem_replicate inSpaces, flushLine.1⟩
    have rest := ih flushLines (depthAfter (depthOf depth line) line)
    rw [textLines] at rest ⊢
    rw [indentFrom, List.map_cons, String.join_cons, splitOn_ended noBreak,
      List.dropLast_cons_of_ne_nil (List.splitOn_ne_nil _ _), List.map_cons,
      unindented_indentLine flushLine, rest]

/-- Lines are found again in the text that they are laid out in. -/
theorem textLines_layout {lines : List String} (flush : ∀ line ∈ lines, Flush line) :
    textLines (layout lines) = lines :=
  textLines_join flush 0

/-! ## Blocks -/

/-- A part of some code: a line, or a block with a header. -/
inductive Code where
  | line (text : String)
  | block (header : String) (body : List Code)

namespace Code

mutual

def lines : Code → List String
  | .line text => [text]
  | .block header body => header :: (linesOf body ++ ["\x7d"])

def linesOf : List Code → List String
  | [] => []
  | code :: codes => code.lines ++ linesOf codes

end

def Opens (line : String) : Prop :=
  line.toList.getLast? = some '\x7b'

def Closes (line : String) : Prop :=
  line.toList.head? = some '\x7d'

instance (line : String) : Decidable (Opens line) :=
  inferInstanceAs (Decidable (_ = _))

instance (line : String) : Decidable (Closes line) :=
  inferInstanceAs (Decidable (_ = _))

@[simp] theorem linesOf_append (front back : List Code) :
    linesOf (front ++ back) = linesOf front ++ linesOf back := by
  induction front with
  | nil => rfl
  | cons code front ih => rw [List.cons_append, linesOf, linesOf, ih, List.append_assoc]

theorem linesOf_flatMap {α : Type} (part : α → List Code) (items : List α) :
    linesOf (items.flatMap part) = items.flatMap fun item => linesOf (part item) := by
  induction items with
  | nil => rfl
  | cons item items ih => rw [List.flatMap_cons, List.flatMap_cons, linesOf_append, ih]

/-- Put a block in front of the code behind it. -/
def wrap (header : String) (body : List Code) : List (List Code) → List (List Code)
  | after :: outer => (.block header body :: after) :: outer
  | [] => []

/-- Take in the line in front of some code. What follows it is stacked: the code up to the end
of the block that the line is in, then the code behind that block, and so on. -/
def takeLine (line : String) : List (List Code) → List (List Code)
  | [] => []
  | inside :: behind =>
      if Closes line then [] :: inside :: behind
      else if Opens line then wrap line inside behind
      else (.line line :: inside) :: behind

/-- The code in a text, unless its braces are not balanced. -/
def ofText (text : String) : Option (List Code) :=
  match (textLines text).foldr takeLine [[]] with
  | [code] => some code
  | _ => none

mutual

/-- Lines open no block and close none, headers open one, and all of them stand by
themselves. -/
def WellFormed : Code → Prop
  | .line text => Flush text ∧ ¬ Closes text ∧ ¬ Opens text
  | .block header body => Flush header ∧ ¬ Closes header ∧ Opens header ∧ AllWellFormed body

def AllWellFormed : List Code → Prop
  | [] => True
  | code :: codes => code.WellFormed ∧ AllWellFormed codes

end

theorem allWellFormed_iff {codes : List Code} :
    AllWellFormed codes ↔ ∀ code ∈ codes, code.WellFormed := by
  induction codes with
  | nil => simp [AllWellFormed]
  | cons code codes ih => rw [AllWellFormed, ih, List.forall_mem_cons]

mutual

theorem WellFormed.flush {line : String} :
    ∀ {code : Code}, code.WellFormed → line ∈ code.lines → Flush line
  | .line text, wellFormed, member => by
      rw [List.mem_singleton.1 member]
      exact wellFormed.1
  | .block header body, wellFormed, member => by
      rw [lines, List.mem_cons, List.mem_append, List.mem_singleton] at member
      rcases member with rfl | inBody | rfl
      · exact wellFormed.1
      · exact wellFormed.2.2.2.flush inBody
      · exact ⟨by decide, by decide⟩

theorem AllWellFormed.flush {line : String} :
    ∀ {codes : List Code}, AllWellFormed codes → line ∈ linesOf codes → Flush line
  | [], _, member => nomatch member
  | code :: codes, wellFormed, member => by
      rw [linesOf, List.mem_append] at member
      rcases member with first | later
      · exact wellFormed.1.flush first
      · exact wellFormed.2.flush later

end

mutual

/-- Reading the lines of a part puts the part in front of what follows. -/
theorem WellFormed.foldr_takeLine :
    ∀ {code : Code}, code.WellFormed → ∀ (behind : List Code) (outer : List (List Code)),
      code.lines.foldr takeLine (behind :: outer) = (code :: behind) :: outer
  | .line text, ⟨_, closes, opens⟩, behind, outer => by
      rw [lines, List.foldr_cons, List.foldr_nil, takeLine, if_neg closes, if_neg opens]
  | .block header body, ⟨_, closes, opens, wellFormed⟩, behind, outer => by
      -- the closing brace begins the code of the block, and the header ends it
      rw [lines, List.foldr_cons, List.foldr_append, List.foldr_cons, List.foldr_nil]
      have closing : takeLine "\x7d" (behind :: outer) = [] :: behind :: outer := rfl
      rw [closing, wellFormed.foldr_takeLine, List.append_nil, takeLine, if_neg closes,
        if_pos opens, wrap]

theorem AllWellFormed.foldr_takeLine :
    ∀ {codes : List Code}, AllWellFormed codes →
      ∀ (behind : List Code) (outer : List (List Code)),
        (linesOf codes).foldr takeLine (behind :: outer) = (codes ++ behind) :: outer
  | [], _, _, _ => rfl
  | code :: codes, ⟨first, later⟩, behind, outer => by
      rw [linesOf, List.foldr_append, later.foldr_takeLine, first.foldr_takeLine]
      rfl

end

theorem ofText_layout {codes : List Code} (wellFormed : AllWellFormed codes) :
    ofText (layout (linesOf codes)) = some codes := by
  rw [ofText, textLines_layout fun _ => wellFormed.flush, wellFormed.foldr_takeLine,
    List.append_nil]

end Code

end Reckon.Schema
