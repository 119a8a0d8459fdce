import Mathlib.Data.Set.Card
import Mathlib.Order.Interval.Finset.Nat
import Reckon.Proofs.Schema.Extraction

/-!
# Blocks of generated code

Generated lines are indented by counting the braces at their ends. Where these are balanced,
the count is the number of blocks that a line is in.
-/

/-!
## Blocks between lines

Where the braces at the ends of lines are balanced, each line that opens a block is matched by
the line that closes it. The depth that is counted from line to line is then the number of
blocks that are open: it falls back to where it was exactly at the end of a block, so that the
blocks around a line can be told by the depths that they begin at.
-/

namespace Reckon.Schema

open Code (Opens Closes)

variable {line header closing : String} {lines before after body rest : List String}
  {first last place : Nat}

/-! ## Depths -/

/-- The depth behind some lines that begin at a given depth. -/
def depthBehind (depth : Nat) (lines : List String) : Nat :=
  lines.foldl (fun depth line => depthAfter (depthOf depth line) line) depth

@[simp] theorem depthBehind_nil (depth : Nat) : depthBehind depth [] = depth := rfl

@[simp] theorem depthBehind_cons (depth : Nat) (line : String) (lines : List String) :
    depthBehind depth (line :: lines) = depthBehind (depthAfter (depthOf depth line) line) lines :=
  rfl

@[simp] theorem depthBehind_append (depth : Nat) (front back : List String) :
    depthBehind depth (front ++ back) = depthBehind (depthBehind depth front) back :=
  List.foldl_append

@[simp] theorem depthOf_of_closes (closes : Closes line) (depth : Nat) :
    depthOf depth line = depth - 1 :=
  if_pos closes

@[simp] theorem depthOf_of_not_closes (closes : ¬ Closes line) (depth : Nat) :
    depthOf depth line = depth :=
  if_neg closes

@[simp] theorem depthAfter_of_opens (opens : Opens line) (depth : Nat) :
    depthAfter depth line = depth + 1 :=
  if_pos opens

@[simp] theorem depthAfter_of_not_opens (opens : ¬ Opens line) (depth : Nat) :
    depthAfter depth line = depth :=
  if_neg opens

/-! ## Balanced lines -/

/-- Lines in which every line that opens a block is matched by a line that closes it, with
balanced lines between them. -/
inductive Balanced : List String → Prop where
  | nil : Balanced []
  | line {line : String} {rest : List String} :
      ¬ Opens line → ¬ Closes line → Balanced rest → Balanced (line :: rest)
  | block {header closing : String} {body rest : List String} :
      Opens header → ¬ Closes header → Balanced body → Closes closing → ¬ Opens closing →
      Balanced rest → Balanced (header :: (body ++ closing :: rest))

namespace Balanced

theorem append {front back : List String} (balanced : Balanced front)
    (others : Balanced back) : Balanced (front ++ back) := by
  induction balanced with
  | nil => exact others
  | line opens closes _ ih => exact .line opens closes ih
  | block opens headerCloses body closes closingOpens _ _ ih =>
    rw [List.cons_append, List.append_assoc]
    exact .block opens headerCloses body closes closingOpens ih

/-- Behind balanced lines the depth is what it was in front of them. -/
theorem depthBehind_eq (balanced : Balanced lines) (depth : Nat) :
    depthBehind depth lines = depth := by
  induction balanced generalizing depth with
  | nil => rfl
  | line opens closes _ ih => simp [opens, closes, ih]
  | block opens headerCloses _ closes closingOpens _ bodyIH ih =>
    simp [opens, headerCloses, closes, closingOpens, bodyIH, ih]

/-- Within balanced lines the depth is not below what it was in front of them. -/
theorem le_depthBehind_take (balanced : Balanced lines) (depth count : Nat) :
    depth ≤ depthBehind depth (lines.take count) := by
  induction balanced generalizing depth count with
  | nil => rw [List.take_nil]; exact Nat.le_refl depth
  | line opens closes _ ih =>
    cases count with
    | zero => exact Nat.le_refl depth
    | succ count =>
      simpa [opens, closes] using ih depth count
  | @block header closing body rest opens headerCloses inner closes closingOpens _ bodyIH ih =>
    cases count with
    | zero => exact Nat.le_refl depth
    | succ count =>
      cases within : count - body.length with
      | zero =>
        have inBody := Nat.le_of_succ_le (bodyIH (depth + 1) count)
        simpa [List.take_append, opens, headerCloses, within] using inBody
      | succ behind =>
        have whole : body.take count = body := List.take_of_length_le (by omega)
        simpa [List.take_append, opens, headerCloses, within, whole, inner.depthBehind_eq, closes,
          closingOpens] using ih depth behind

end Balanced

mutual

theorem Code.WellFormed.balanced : ∀ {code : Code}, code.WellFormed → Balanced code.lines
  | .line _, ⟨_, closes, opens⟩ => .line opens closes .nil
  | .block _ _, ⟨_, closes, opens, wellFormed⟩ =>
      .block opens closes wellFormed.balanced (by decide) (by decide) .nil

theorem Code.AllWellFormed.balanced :
    ∀ {codes : List Code}, AllWellFormed codes → Balanced (linesOf codes)
  | [], _ => .nil
  | _ :: _, ⟨first, later⟩ => first.balanced.append later.balanced

end

/-! ### The part of a line -/

/-- What a line does among balanced lines: it opens the block that a later line closes, or it
closes the block that an earlier line opens, or neither. -/
inductive Role (before : List String) (line : String) (after : List String) : Prop where
  | plain : ¬ Opens line → ¬ Closes line → Role before line after
  | header {body rest : List String} {closing : String} :
      Opens line → ¬ Closes line → after = body ++ closing :: rest → Balanced body →
      Closes closing → Role before line after
  | closing {front body : List String} {header : String} :
      Closes line → ¬ Opens line → before = front ++ header :: body → Opens header →
      Balanced body → Role before line after

theorem Role.extend (role : Role before line after) (front back : List String) :
    Role (front ++ before) line (after ++ back) := by
  cases role with
  | plain opens closes => exact .plain opens closes
  | @header body rest closing opens closes shape inner closed =>
    have extended : after ++ back = body ++ closing :: (rest ++ back) := by
      rw [shape, List.append_assoc, List.cons_append]
    exact .header opens closes extended inner closed
  | @closing start body header closes opens shape opened inner =>
    have extended : front ++ before = (front ++ start) ++ header :: body := by
      rw [shape, List.append_assoc]
    exact .closing closes opens extended opened inner

theorem Role.not_both (role : Role before line after) : ¬ (Opens line ∧ Closes line) := by
  rintro ⟨opens, closes⟩
  cases role with
  | plain closed => exact closed opens
  | header _ other => exact other closes
  | closing _ closed => exact closed opens

theorem Balanced.role (balanced : Balanced lines) (shape : lines = before ++ line :: after) :
    Role before line after := by
  induction balanced generalizing before after with
  | nil => simp at shape
  | @line text rest opens closes _ ih =>
    rcases List.cons_eq_append_iff.1 shape with ⟨rfl, here⟩ | ⟨between, rfl, later⟩
    · obtain ⟨rfl, rfl⟩ := List.cons.inj here
      exact .plain opens closes
    · simpa using (ih later).extend [text] []
  | @block header closing body rest opens headerCloses inner closes closingOpens _ bodyIH ih =>
    rcases List.cons_eq_append_iff.1 shape with ⟨rfl, here⟩ | ⟨between, rfl, later⟩
    · obtain ⟨rfl, rfl⟩ := List.cons.inj here
      exact .header opens headerCloses rfl inner closes
    -- the line is in the body, or closes the block, or is behind it
    rcases List.append_eq_append_iff.1 later with ⟨gap, rfl, there⟩ | ⟨gap, rfl, there⟩
    · rcases List.cons_eq_append_iff.1 there with ⟨rfl, there⟩ | ⟨skipped, rfl, behind⟩
      · obtain ⟨rfl, rfl⟩ := List.cons.inj there
        exact .closing closes closingOpens
          (show header :: (body ++ []) = [] ++ header :: body by simp) opens inner
      · simpa using (ih behind).extend (header :: (body ++ [closing])) []
    · rcases List.cons_eq_append_iff.1 there with ⟨rfl, there⟩ | ⟨within, rfl, rfl⟩
      · obtain ⟨rfl, rfl⟩ := List.cons.inj there
        rw [List.append_nil] at inner
        exact .closing closes closingOpens (List.nil_append _).symm opens inner
      · simpa using (bodyIH rfl).extend [header] (closing :: rest)

/-! ## Blocks by their places -/

/-- A block between two lines: the first opens it, the second closes it, and the lines between
them are balanced. -/
inductive IsBlock (lines : List String) : (first last : Nat) → Prop where
  | of {before body after : List String} {header closing : String} :
      lines = before ++ header :: (body ++ closing :: after) → Opens header → Closes closing →
      Balanced body → IsBlock lines before.length (before.length + body.length + 1)

/-- The blocks that are open around a line. -/
def blocksAround (lines : List String) (place : Nat) : Set (Nat × Nat) :=
  {block | IsBlock lines block.1 block.2 ∧ block.1 < place ∧ place < block.2}

/-- The depth in front of a line. -/
def depthAt (lines : List String) (place : Nat) : Nat :=
  depthBehind 0 (lines.take place)

theorem depthAt_succ (inside : place < lines.length) :
    depthAt lines (place + 1) =
      depthAfter (depthOf (depthAt lines place) lines[place]) lines[place] := by
  rw [depthAt, List.take_succ_eq_append_getElem inside, depthBehind_append]
  rfl

theorem append_getElem_append_drop (inside : place < lines.length) :
    lines = lines.take place ++ lines[place] :: lines.drop (place + 1) := by
  rw [List.getElem_cons_drop inside, List.take_append_drop]

section Balanced

variable (balanced : Balanced lines)
include balanced

/-- Every line that opens a block has the line that closes it. -/
theorem exists_block_of_opens (inside : place < lines.length) (opens : Opens lines[place]) :
    ∃ last, IsBlock lines place last := by
  have shape := append_getElem_append_drop inside
  cases balanced.role shape with
  | plain closed => exact absurd opens closed
  | closing _ closed => exact absurd opens closed
  | header _ _ behind body closes =>
    rw [behind] at shape
    have block := IsBlock.of shape opens closes body
    rw [List.length_take_of_le (Nat.le_of_lt inside)] at block
    exact ⟨_, block⟩

theorem exists_block_of_closes (inside : place < lines.length) (closes : Closes lines[place]) :
    ∃ first, IsBlock lines first place := by
  have shape := append_getElem_append_drop inside
  cases balanced.role shape with
  | plain _ other => exact absurd closes other
  | header _ other => exact absurd closes other
  | @closing front body header _ _ inFront opens inner =>
    have long := congrArg List.length inFront
    rw [List.length_take_of_le (Nat.le_of_lt inside), List.length_append, List.length_cons] at long
    rw [inFront, List.append_assoc, List.cons_append] at shape
    have block := IsBlock.of shape opens closes inner
    rw [Nat.add_assoc, ← long] at block
    exact ⟨_, block⟩

/-- Within a block the depth is above that in front of it, and behind the block it is the
same. -/
theorem IsBlock.depths (block : IsBlock lines first last) :
    first < last ∧ last < lines.length ∧
      (∀ place, first < place → place ≤ last → depthAt lines first < depthAt lines place) ∧
      depthAt lines (last + 1) = depthAt lines first := by
  obtain @⟨before, body, after, header, closing, shape, opens, closes, inner⟩ := block
  have headerCloses : ¬ Closes header := fun both => (balanced.role shape).not_both ⟨opens, both⟩
  have others : lines = (before ++ header :: body) ++ closing :: after := by
    rw [shape, List.append_assoc, List.cons_append]
  have closingOpens : ¬ Opens closing := fun both => (balanced.role others).not_both ⟨both, closes⟩
  have start : depthAt lines before.length = depthBehind 0 before := by
    rw [depthAt, shape, List.take_left]
  have inside (count : Nat) : depthBehind 0 (before ++ header :: body.take count) =
      depthBehind (depthBehind 0 before + 1) (body.take count) := by
    simp [opens, headerCloses]
  refine ⟨by omega, by rw [shape]; simp; omega, fun place later earlier => ?_, ?_⟩
  · obtain ⟨count, rfl⟩ := Nat.exists_eq_add_of_lt later
    have taken : lines.take (before.length + count + 1) = before ++ header :: body.take count := by
      have next : before.length + count + 1 - before.length = count + 1 := by omega
      rw [shape, List.take_append, List.take_of_length_le (by omega), next, List.take_succ_cons,
        List.take_append_of_le_length (by omega)]
    rw [start, depthAt, taken, inside]
    exact inner.le_depthBehind_take _ count
  · have taken : lines.take (before.length + body.length + 1 + 1) =
        before ++ header :: body ++ [closing] := by
      have length : (before ++ header :: body).length = before.length + body.length + 1 :=
        List.length_append
      rw [others, ← length, List.take_length_add_append]
      rfl
    have whole := inside body.length
    rw [List.take_length, inner.depthBehind_eq] at whole
    rw [start, depthAt, taken, depthBehind_append, whole]
    simp [closes, closingOpens]

/-- A block is told by where it begins, and by where it ends. -/
theorem IsBlock.first_eq_iff {first' last' : Nat} (block : IsBlock lines first last)
    (other : IsBlock lines first' last') : first = first' ↔ last = last' := by
  obtain ⟨before, -, above, falls⟩ := block.depths balanced
  obtain ⟨before', -, above', falls'⟩ := other.depths balanced
  constructor
  · rintro rfl
    -- the depth falls back behind the earlier end, and so not within the other block
    rcases Nat.lt_trichotomy last last' with less | equal | greater
    · exact absurd falls (Nat.ne_of_gt (above' (last + 1) (by omega) less))
    · exact equal
    · exact absurd falls' (Nat.ne_of_gt (above (last' + 1) (by omega) greater))
  · rintro rfl
    have same := falls.symm.trans falls'
    rcases Nat.lt_trichotomy first first' with less | equal | greater
    · exact absurd same (Nat.ne_of_lt (above first' less (Nat.le_of_lt before')))
    · exact equal
    · exact absurd same (Nat.ne_of_gt (above' first greater (Nat.le_of_lt before)))

/-! ## Counting blocks 
-/

/-- The depth of a line is the lesser of those in front of it and behind it. -/
theorem depthOf_eq_min (inside : place < lines.length) :
    depthOf (depthAt lines place) lines[place] =
      min (depthAt lines place) (depthAt lines (place + 1)) := by
  have notBoth := (balanced.role (append_getElem_append_drop inside)).not_both
  rw [depthAt_succ inside]
  by_cases closes : Closes lines[place]
  · have opens : ¬ Opens lines[place] := fun both => notBoth ⟨both, closes⟩
    simp [opens, closes]
  · by_cases opens : Opens lines[place]
    · simp [opens, closes]
    · simp [opens, closes]

omit balanced in
/-- A height that is passed is passed behind some last place at which it is not. -/
theorem exists_last_le (height : Nat → Nat) {bound : Nat} (low : height 0 ≤ bound)
    (high : bound < height place) :
    ∃ first < place, height first ≤ bound ∧
      ∀ other, first < other → other ≤ place → bound < height other := by
  induction place with
  | zero => exact absurd high (Nat.not_lt_of_le low)
  | succ place ih =>
    by_cases within : height place ≤ bound
    · refine ⟨place, Nat.lt_succ_self place, within, fun other later earlier => ?_⟩
      rwa [Nat.le_antisymm earlier later]
    · obtain ⟨first, before, below, above⟩ := ih (Nat.lt_of_not_le within)
      refine ⟨first, Nat.lt_succ_of_lt before, below, fun other later earlier => ?_⟩
      rcases Nat.le_succ_iff.1 earlier with earlier | rfl
      · exact above other later earlier
      · exact high

/-- At each depth below that of a line, a block begins that is open around the line. -/
theorem exists_block_at_depth (inside : place < lines.length) {depth : Nat}
    (below : depth < depthOf (depthAt lines place) lines[place]) :
    ∃ block ∈ blocksAround lines place, depthAt lines block.1 = depth := by
  rw [depthOf_eq_min balanced inside, Nat.lt_min] at below
  obtain ⟨first, earlier, low, above⟩ :=
    exists_last_le (depthAt lines) (Nat.zero_le depth) below.1
  have within : first < lines.length := Nat.lt_trans earlier inside
  -- the depth rises behind this line, so that the line opens a block
  have rises := above (first + 1) (Nat.lt_succ_self first) earlier
  rw [depthAt_succ within] at rises
  have opens : Opens lines[first] := by
    by_contra closed
    simp only [depthAfter_of_not_opens closed, depthOf_eq_min balanced within] at rises
    exact absurd low (Nat.not_le_of_lt (Nat.lt_min.1 rises).1)
  have notBoth := (balanced.role (append_getElem_append_drop within)).not_both
  have begins : depthAt lines first = depth := by
    rw [depthAfter_of_opens opens,
      depthOf_of_not_closes fun closes => notBoth ⟨opens, closes⟩] at rises
    exact Nat.le_antisymm low (Nat.lt_succ_iff.1 rises)
  obtain ⟨last, block⟩ := exists_block_of_opens balanced within opens
  obtain ⟨before, -, -, falls⟩ := block.depths balanced
  refine ⟨(first, last), ⟨block, earlier, ?_⟩, begins⟩
  by_contra beyond
  -- the depth would fall back too early
  rw [begins] at falls
  rcases Nat.lt_or_eq_of_le (Nat.le_of_not_lt beyond) with early | rfl
  · exact absurd falls (Nat.ne_of_gt (above (last + 1) (Nat.lt_succ_of_lt before) early))
  · exact absurd falls (Nat.ne_of_gt below.2)

/-- Two blocks around a line begin at different depths. -/
theorem injOn_depthAt :
    Set.InjOn (fun block => depthAt lines block.1) (blocksAround lines place) := by
  rintro ⟨first, last⟩ ⟨block, before, behind⟩ ⟨first', last'⟩ ⟨block', before', behind'⟩ same
  change depthAt lines first = depthAt lines first' at same
  obtain ⟨-, -, above, -⟩ := block.depths balanced
  obtain ⟨-, -, above', -⟩ := block'.depths balanced
  -- both blocks are around the line, so that one that begins later begins within the other
  have firsts : first = first' := by
    rcases Nat.lt_trichotomy first first' with less | equal | greater
    · exact absurd same (Nat.ne_of_lt (above first' less (by omega)))
    · exact equal
    · exact absurd same (Nat.ne_of_gt (above' first greater (by omega)))
  exact Prod.ext firsts ((block.first_eq_iff balanced block').1 firsts)

/-- As many blocks are open around a line as its depth says. -/
theorem ncard_blocksAround (inside : place < lines.length) :
    (blocksAround lines place).ncard = depthOf (depthAt lines place) lines[place] := by
  have depths : (fun block => depthAt lines block.1) '' blocksAround lines place =
      Set.Iio (depthOf (depthAt lines place) lines[place]) := by
    ext depth
    constructor
    · rintro ⟨⟨first, last⟩, ⟨block, before, behind⟩, rfl⟩
      obtain ⟨-, -, above, -⟩ := block.depths balanced
      rw [Set.mem_Iio, depthOf_eq_min balanced inside, Nat.lt_min]
      exact ⟨above place before (Nat.le_of_lt behind),
        above (place + 1) (Nat.lt_succ_of_lt before) behind⟩
    · exact exists_block_at_depth balanced inside
  rw [← (injOn_depthAt balanced).ncard_image, depths, Set.ncard_eq_toFinset_card', Set.toFinset_Iio,
    Nat.card_Iio]

theorem IsBlock.ncard_eq (block : IsBlock lines first last) :
    (blocksAround lines first).ncard = (blocksAround lines last).ncard := by
  obtain ⟨before, inside, above, falls⟩ := block.depths balanced
  have header := above (first + 1) (Nat.lt_succ_self first) before
  have closing := above last before (Nat.le_refl last)
  rw [ncard_blocksAround balanced (Nat.lt_trans before inside), ncard_blocksAround balanced inside,
    depthOf_eq_min balanced, depthOf_eq_min balanced, falls, Nat.min_eq_left (Nat.le_of_lt header),
    Nat.min_eq_right (Nat.le_of_lt closing)]

end Balanced

end Reckon.Schema

/-!
## Indentation of generated code

The lines of generated code are indented by counting the braces at their ends. As these are
balanced, the count is that of the blocks around a line, and it never runs below zero. Nothing
but spaces is put in front of a line, so that the lines are found again in the text.
-/

namespace Reckon.Schema

open Code (Opens Closes)

/-- Lines are laid out in a text by the blocks around them. -/
structure FollowsBraces (lines : List String) (text : String) : Prop where
  /-- The text has the lines in their order. Each but an empty one is indented by four spaces for
  every block around it, and an empty one by none. -/
  text_eq : text = String.join ((lines.mapIdx fun place line =>
    if line = "" then ""
    else String.ofList (List.replicate (4 * (blocksAround lines place).ncard) ' ') ++ line).map
      (· ++ "\n"))
  /-- The depth is above zero in front of each line that takes it down. -/
  unsaturated : ∀ (place : Nat) (inside : place < lines.length), Closes lines[place] →
    0 < depthAt lines place
  /-- The depth is zero behind the last line. -/
  ends : depthAt lines lines.length = 0
  /-- Every line that opens a block is matched by one line that closes it. -/
  opened : ∀ (place : Nat) (inside : place < lines.length), Opens lines[place] →
    ∃! last, IsBlock lines place last
  /-- Every line that closes a block is matched by one line that opens it. -/
  closed : ∀ (place : Nat) (inside : place < lines.length), Closes lines[place] →
    ∃! first, IsBlock lines first place
  /-- The lines at both ends of a block are indented alike. -/
  aligned : ∀ first last, IsBlock lines first last →
    (blocksAround lines first).ncard = (blocksAround lines last).ncard
  /-- Without the spaces in front the lines of the text are those that were laid out. -/
  stripped : textLines text = lines

variable {lines : List String}

/-- Each line is indented by the depth in front of it. -/
theorem indentFrom_eq_mapIdx (depth : Nat) (lines : List String) :
    indentFrom depth lines = lines.mapIdx fun place line =>
      indentLine (depthOf (depthBehind depth (lines.take place)) line) line := by
  induction lines generalizing depth with
  | nil => rfl
  | cons line lines ih =>
    rw [indentFrom, List.mapIdx_cons, ih]
    rfl

/-- Each line is indented by the blocks around it. -/
theorem indentFrom_eq_of_balanced (balanced : Balanced lines) :
    indentFrom 0 lines = lines.mapIdx fun place line =>
      if line = "" then ""
      else String.ofList (List.replicate (4 * (blocksAround lines place).ncard) ' ') ++ line := by
  rw [indentFrom_eq_mapIdx]
  apply List.ext_getElem
  · rw [List.length_mapIdx, List.length_mapIdx]
  intro place inside _
  rw [List.length_mapIdx] at inside
  rw [List.getElem_mapIdx, List.getElem_mapIdx, ncard_blocksAround balanced inside, indentLine]
  simp only [String.isEmpty_iff]
  split
  · assumption
  · rfl

theorem followsBraces_layout (balanced : Balanced lines) (flush : ∀ line ∈ lines, Flush line) :
    FollowsBraces lines (layout lines) where
  text_eq := by rw [layout, indentFrom_eq_of_balanced balanced]
  unsaturated place inside closes := by
    obtain ⟨first, block⟩ := exists_block_of_closes balanced inside closes
    obtain ⟨before, -, above, -⟩ := block.depths balanced
    exact Nat.lt_of_le_of_lt (Nat.zero_le _) (above place before (Nat.le_refl place))
  ends := by rw [depthAt, List.take_length, balanced.depthBehind_eq]
  opened place inside opens := by
    obtain ⟨last, block⟩ := exists_block_of_opens balanced inside opens
    exact ⟨last, block, fun other also => (also.first_eq_iff balanced block).1 rfl⟩
  closed place inside closes := by
    obtain ⟨first, block⟩ := exists_block_of_closes balanced inside closes
    exact ⟨first, block, fun other also => (also.first_eq_iff balanced block).2 rfl⟩
  aligned _ _ block := block.ncard_eq balanced
  stripped := textLines_layout flush

/-- A brace within a line opens no block. -/
example : layout ["a \x7b", "b \x7b", "c", "\x7d", "", "Self \x7b d \x7d", "\x7d"] =
    "a \x7b\n    b \x7b\n        c\n    \x7d\n\n    Self \x7b d \x7d\n\x7d\n" := by
  rfl

/-- The code for a grammar is laid out by the blocks around its lines. -/
theorem NodeModel.Sound.followsBraces {model : NodeModel} (sound : model.Sound) :
    FollowsBraces model.lines model.toText := by
  have wellFormed := CodeFile.allWellFormed_code (file_fits sound)
  rw [NodeModel.toText, ← linesOf_file]
  exact followsBraces_layout wellFormed.balanced fun _ => wellFormed.flush

/-- Grammars whose names are names lead to code that is indented by its braces. -/
theorem define_follows_braces {base : String} {uses lines : List String} {rules : List Rule}
    (accepted : lines.mapM Rule.ofLine = .ok rules)
    (withinLines : ∀ path ∈ uses, '\n' ∉ path.toList) (isName : IsName base)
    (typeNames : ∀ rule ∈ rules, IsName rule.typeName)
    (fieldNames : ∀ rule ∈ rules, ∀ field ∈ rule.fields, IsName field.name) :
    ∃ text, define base uses lines = .ok text ∧
      FollowsBraces (NodeModel.mk base uses rules).lines text :=
  ⟨_, define_of_accepted accepted,
    (NodeModel.sound_of_accepted accepted withinLines isName typeNames fieldNames).followsBraces⟩

/-- The braces of `Self` in a constructor open no block, be there fields or not. -/
theorem define_follows_braces_pair :
    ["Pair : Expr left, Expr right", "Nil :"].mapM Rule.ofLine =
        .ok [⟨"Pair", [⟨"Expr", "left"⟩, ⟨"Expr", "right"⟩]⟩, ⟨"Nil", []⟩] ∧
      ∃ text, define "Expr" ["value::Value"] ["Pair : Expr left, Expr right", "Nil :"] =
          .ok text ∧
        FollowsBraces (NodeModel.mk "Expr" ["value::Value"]
          [⟨"Pair", [⟨"Expr", "left"⟩, ⟨"Expr", "right"⟩]⟩, ⟨"Nil", []⟩]).lines text := by
  have accepted : ["Pair : Expr left, Expr right", "Nil :"].mapM Rule.ofLine =
      .ok [⟨"Pair", [⟨"Expr", "left"⟩, ⟨"Expr", "right"⟩]⟩, ⟨"Nil", []⟩] := by
    rfl
  have withinLines : ∀ path ∈ ["value::Value"], '\n' ∉ path.toList := by
    simp
  have isName : IsName "Expr" := by decide
  have typeNames : ∀ rule ∈ [(⟨"Pair", [⟨"Expr", "left"⟩, ⟨"Expr", "right"⟩]⟩ : Rule),
      ⟨"Nil", []⟩], IsName rule.typeName := by
    simp only [List.forall_mem_cons]
    exact ⟨by decide, by decide, nofun⟩
  have fieldNames : ∀ rule ∈ [(⟨"Pair", [⟨"Expr", "left"⟩, ⟨"Expr", "right"⟩]⟩ : Rule),
      ⟨"Nil", []⟩], ∀ field ∈ rule.fields, IsName field.name := by
    simp only [List.forall_mem_cons]
    exact ⟨⟨by decide, by decide, nofun⟩, nofun, nofun⟩
  exact ⟨accepted, define_follows_braces accepted withinLines isName typeNames fieldNames⟩

end Reckon.Schema
