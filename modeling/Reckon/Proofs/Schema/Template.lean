import Reckon.Proofs.Schema.Naming
import Reckon.Proofs.Schema.Outline
import Reckon.Proofs.Text

/-!
# Templates of lines

Generated lines are fixed texts with gaps, into which names and types are filled. What was
filled in can be read back: a gap ends where a character comes that cannot be in it. A template
also tells whether its lines open a block.
-/

namespace Reckon.Schema

/-- What can be in a gap: a name, which may be marked as raw, or a word without a comma. -/
inductive Gap where
  | name
  | word

def Gap.accepts : Gap → Char → Bool
  | .name, character => Text.isNameCharacter character || character == '#'
  | .word, character => !Text.isBlank character && character != ','

/-- Whether a value can be in a gap. -/
def Gap.Holds (kind : Gap) (value : String) : Prop :=
  ∀ character ∈ value.toList, kind.accepts character = true

/-- The form of a line: texts and gaps in turn. The last gap of a line may hold anything. -/
inductive Template where
  | done
  | text (literal : String) (more : Template)
  | gap (kind : Gap) (more : Template)
  | last (back : String)

namespace Template

def fill : Template → List String → String
  | .done, _ => ""
  | .text literal more, values => literal ++ more.fill values
  | .gap _ more, value :: values => value ++ more.fill values
  | .gap _ more, [] => more.fill []
  | .last back, value :: _ => value ++ back
  | .last back, [] => back

/-- Each gap has a value that can be in it. -/
def Fits : Template → List String → Prop
  | .done, [] => True
  | .text _ more, values => more.Fits values
  | .gap kind more, value :: values => kind.Holds value ∧ more.Fits values
  | .last _, [value] => '\n' ∉ value.toList
  | _, _ => False

/-- Values fit by the gaps of a template, one after the other. -/
@[elab_as_elim]
theorem Fits.ind {motive : ∀ template values, Fits template values → Prop}
    (done : motive .done [] trivial)
    (text : ∀ literal more values (fits : Fits more values),
      motive more values fits → motive (.text literal more) values fits)
    (gap : ∀ kind more value values (holds : Gap.Holds kind value) (fits : Fits more values),
      motive more values fits → motive (.gap kind more) (value :: values) ⟨holds, fits⟩)
    (last : ∀ (back value : String) (oneLine : '\n' ∉ value.toList),
      motive (.last back) [value] oneLine)
    {template : Template} {values : List String} (fits : template.Fits values) :
    motive template values fits := by
  induction template generalizing values with
  | done =>
    cases values with
    | nil => exact done
    | cons value values => cases fits
  | text literal more ih => exact text literal more values fits (ih fits)
  | gap kind more ih =>
    cases values with
    | nil => cases fits
    | cons value values => exact gap kind more value values fits.1 fits.2 (ih fits.2)
  | last back =>
    match values, fits with
    | [value], oneLine => exact last back value oneLine

/-- Read the values in the gaps of a line. -/
def read? : Template → List Char → Option (List String)
  | .done, line => if line.isEmpty then some [] else none
  | .text literal more, line => (line.dropPrefix? literal.toList).bind more.read?
  | .gap kind more, line =>
      (more.read? (line.dropWhile kind.accepts)).map
        (String.ofList (line.takeWhile kind.accepts) :: ·)
  | .last back, line =>
      (line.dropSuffix? back.toList).map fun value => [String.ofList value]

/-! ## Reading back -/

/-- Whether every line of a template begins with a character that cannot be in a gap. -/
def stops (kind : Gap) : Template → Bool
  | .done => true
  | .text literal _ => literal.toList.head?.any (!kind.accepts ·)
  | .gap .. | .last _ => false

/-- Whether every gap ends where the text behind it begins. -/
def divided : Template → Bool
  | .done | .last _ => true
  | .text _ more => more.divided
  | .gap kind more => more.stops kind && more.divided

theorem head?_fill_of_stops {kind : Gap} {template : Template}
    (stops : template.stops kind = true) (values : List String) :
    ∀ character ∈ (template.fill values).toList.head?, kind.accepts character = false := by
  cases template with
  | done => simp [fill]
  | text literal more =>
    obtain ⟨first, isFirst, refused⟩ := (Option.any_eq_true _ _).1 stops
    rw [fill, String.toList_append, List.head?_append, isFirst, Option.some_or]
    simpa using refused
  | gap other more => cases stops
  | last back => cases stops

theorem read?_fill {template : Template} (divided : template.divided = true)
    {values : List String} (fits : template.Fits values) :
    template.read? (template.fill values).toList = some values := by
  induction fits using Fits.ind with
  | done => simp [fill, read?]
  | text literal more values fits ih =>
    rw [fill, read?, String.toList_append, List.dropPrefix?_append_of_beq _ BEq.rfl]
    exact ih divided
  | gap kind more value values holds fits ih =>
    rw [Template.divided, Bool.and_eq_true] at divided
    obtain ⟨taken, dropped⟩ := Text.span_exact _ holds (head?_fill_of_stops divided.1 values)
    rw [fill, read?, String.toList_append, taken, dropped, ih divided.2, String.ofList_toList]
    rfl
  | last back value oneLine =>
    have dropped : (value.toList ++ back.toList).dropSuffix? back.toList = some value.toList :=
      List.dropSuffix?_eq_some_iff.2 ⟨back.toList, rfl, BEq.rfl⟩
    rw [fill, read?, String.toList_append, dropped]
    simp

/-- Whether two templates begin with texts that are told apart within both. -/
def clashes : Template → Template → Bool
  | .text one _, .text other _ =>
      !one.toList.isPrefixOf other.toList && !other.toList.isPrefixOf one.toList
  | _, _ => false

theorem read?_of_clashes {template other : Template} (clashes : template.clashes other = true)
    (values : List String) : template.read? (other.fill values).toList = none := by
  match template, other, clashes with
  | .text literal more, .text beginning rest, clashes =>
    rw [Template.clashes, Bool.and_eq_true, Bool.not_eq_true', Bool.not_eq_true',
      ← Bool.not_eq_true, ← Bool.not_eq_true, List.isPrefixOf_iff_prefix,
      List.isPrefixOf_iff_prefix] at clashes
    have noPrefix : (beginning.toList ++ (rest.fill values).toList).dropPrefix? literal.toList =
        none := by
      rw [Option.eq_none_iff_forall_ne_some]
      intro behind dropped
      obtain ⟨front, shape, same⟩ := List.dropPrefix?_eq_some_iff.1 dropped
      rw [eq_of_beq same] at shape
      have within : literal.toList <+: beginning.toList ++ (rest.fill values).toList :=
        ⟨behind, shape.symm⟩
      exact (List.prefix_or_prefix_of_prefix within (List.prefix_append _ _)).elim
        clashes.1 clashes.2
    rw [fill, read?, String.toList_append, noPrefix, Option.bind_none]

/-! ## Ends of lines -/

/-- Whether every line of a template begins with a character that neither closes a block nor is
a space. -/
def begins : Template → Bool
  | .text literal _ => literal.toList.head?.any fun first => first != ' ' && first != '\x7d'
  | .gap .name more => more.begins
  | _ => false

/-- Whether no line of a template has a character. What is in the last gap is only known to be
within a line. -/
def lacks (character : Char) : Template → Bool
  | .done => true
  | .text literal more => !literal.toList.contains character && more.lacks character
  | .gap kind more => !kind.accepts character && more.lacks character
  | .last back => character == '\n' && !back.toList.contains character

/-- Whether a text opens a block, if there is anything in it. -/
def opening? (text : String) : Option Bool :=
  text.toList.getLast?.map (· == '\x7b')

/-- Whether the lines of a template open a block, as far as the template tells. So much is
known of what stands in front of it. -/
def opens? : Template → (front : Option Bool) → Option Bool
  | .done, front => front
  | .text literal more, front => more.opens? ((opening? literal).or front)
  | .gap .name more, front => more.opens? (if front = some false then front else none)
  | .gap .word more, _ => more.opens? none
  | .last back, _ => opening? back

theorem ne_of_accepts_name {character : Char} (accepted : Gap.name.accepts character = true) :
    character ≠ ' ' ∧ character ≠ '\x7d' ∧ character ≠ '\x7b' := by
  refine ⟨?_, ?_, ?_⟩ <;>
  · rintro rfl
    revert accepted
    decide

theorem begins_fill {template : Template} (begins : template.begins = true)
    {values : List String} (fits : template.Fits values) :
    ∃ first ∈ (template.fill values).toList.head?, first ≠ ' ' ∧ first ≠ '\x7d' := by
  induction fits using Fits.ind with
  | done | last => cases begins
  | text literal more values =>
    obtain ⟨first, isFirst, other⟩ := (Option.any_eq_true _ _).1 begins
    rw [Bool.and_eq_true, bne_iff_ne, bne_iff_ne] at other
    refine ⟨first, ?_, other⟩
    rw [fill, String.toList_append, List.head?_append, isFirst]
    rfl
  | gap kind more value values holds fits ih =>
    cases kind with
    | word => cases begins
    | name =>
      obtain ⟨first, isFirst, other⟩ := ih begins
      rw [fill, String.toList_append, List.head?_append]
      cases spelled : value.toList with
      | nil => exact ⟨first, isFirst, other⟩
      | cons letter letters =>
        have apart := ne_of_accepts_name (holds letter (by simp [spelled]))
        exact ⟨letter, rfl, apart.1, apart.2.1⟩

theorem lacks_fill {character : Char} {template : Template}
    (lacks : template.lacks character = true) {values : List String}
    (fits : template.Fits values) : character ∉ (template.fill values).toList := by
  induction fits using Fits.ind with
  | done => simp [fill]
  | text literal more values fits ih =>
    simp only [Template.lacks, Bool.and_eq_true, Bool.not_eq_true', List.contains_eq_mem,
      decide_eq_false_iff_not] at lacks
    rw [fill, String.toList_append, List.mem_append, not_or]
    exact ⟨lacks.1, ih lacks.2⟩
  | gap kind more value values holds fits ih =>
    rw [Template.lacks, Bool.and_eq_true, Bool.not_eq_true'] at lacks
    rw [fill, String.toList_append, List.mem_append, not_or]
    refine ⟨fun inValue => ?_, ih lacks.2⟩
    rw [holds character inValue] at lacks
    cases lacks.1
  | last back value oneLine =>
    simp only [Template.lacks, Bool.and_eq_true, beq_iff_eq, Bool.not_eq_true',
      List.contains_eq_mem, decide_eq_false_iff_not] at lacks
    rw [fill, String.toList_append, List.mem_append, not_or]
    exact ⟨lacks.1 ▸ oneLine, lacks.2⟩

theorem opens_append_iff {text : String} {opens : Bool} (known : opening? text = some opens)
    (before : String) : Code.Opens (before ++ text) ↔ opens = true := by
  obtain ⟨final, isLast, brace⟩ := Option.map_eq_some_iff.1 known
  rw [Code.Opens, String.toList_append, List.getLast?_append, isLast, ← brace]
  simp

section Opens

variable {front : Option Bool} {before : String}
variable (ahead : ∀ opens, front = some opens → (Code.Opens before ↔ opens = true))
include ahead

/-- A literal tells whether a block is opened, if there is anything in it. -/
theorem opens_append_literal {literal : String} {opens : Bool}
    (told : (opening? literal).or front = some opens) :
    Code.Opens (before ++ literal) ↔ opens = true := by
  cases inLiteral : opening? literal with
  | some own =>
    rw [inLiteral, Option.some_or] at told
    cases told
    exact opens_append_iff inLiteral before
  | none =>
    rw [inLiteral, Option.none_or] at told
    have empty : literal = "" := by simpa [opening?] using inLiteral
    rw [empty, String.append_empty]
    exact ahead opens told

theorem opens_append_name {name : String} (holds : Gap.name.Holds name) {opens : Bool}
    (told : (if front = some false then front else none) = some opens) :
    Code.Opens (before ++ name) ↔ opens = true := by
  split at told
  next closed =>
    obtain rfl : false = opens := Option.some.inj (closed.symm.trans told)
    cases final : name.toList.getLast? with
    | none =>
      have empty : name = "" := by simpa using final
      rw [empty, String.append_empty]
      exact ahead false closed
    | some letter =>
      -- no letter of a name is a brace
      have apart := ne_of_accepts_name (holds letter (List.mem_of_getLast? final))
      have noBrace : opening? name = some false := by
        simp [opening?, final, apart.2.2]
      exact opens_append_iff noBrace before
  · cases told

/-- Behind any text a template opens a block if and only if it tells so. -/
theorem opens_fill {template : Template} {values : List String} (fits : template.Fits values)
    {opens : Bool} (known : template.opens? front = some opens) :
    Code.Opens (before ++ template.fill values) ↔ opens = true := by
  induction fits using Fits.ind generalizing front before with
  | done =>
    rw [fill, String.append_empty]
    exact ahead opens known
  | text literal more values fits ih =>
    rw [fill, ← String.append_assoc]
    exact ih (fun _ => opens_append_literal ahead) known
  | gap kind more value values holds fits ih =>
    rw [fill, ← String.append_assoc]
    cases kind with
    | word =>
      have untold (other : Bool) (told : (none : Option Bool) = some other) :
          Code.Opens (before ++ value) ↔ other = true := nomatch told
      exact ih untold known
    | name => exact ih (fun _ => opens_append_name ahead holds) known
  | last back value oneLine =>
    rw [fill, ← String.append_assoc]
    exact opens_append_iff known _

end Opens

end Template

end Reckon.Schema
