import Reckon.Proofs.Schema.Template

/-!
# Forms of lines

A form says what a kind of generated line tells, and how that is put into a template. Whatever
is written in a form is read back from it. A form of whole lines also fixes whether these open
blocks, so that lines and headers can be put together to code that is well-formed.
-/

namespace Reckon.Schema

/-! ## Lists that are read back -/

theorem mapM_map_eq_some {α β : Type} {write : α → β} {read : β → Option α} {items : List α}
    (back : ∀ item ∈ items, read (write item) = some item) :
    (items.map write).mapM read = some items := by
  induction items with
  | nil => rfl
  | cons item items ih =>
    obtain ⟨first, rest⟩ := List.forall_mem_cons.1 back
    rw [List.map_cons, List.mapM_cons, first, ih rest]
    rfl

theorem filterMap_map_eq_self {α β : Type} {write : α → β} {read : β → Option α}
    {items : List α} (back : ∀ item ∈ items, read (write item) = some item) :
    (items.map write).filterMap read = items := by
  induction items with
  | nil => rfl
  | cons item items ih =>
    obtain ⟨first, rest⟩ := List.forall_mem_cons.1 back
    rw [List.map_cons, List.filterMap_cons, first, ih rest]

/-! ## Forms -/

/-- A template, and how content of a type is put into its gaps and taken out of them again. -/
structure Form (Content : Type) where
  template : Template
  values : Content → List String
  ofValues : List String → Option Content
  ofValues_values : ∀ content, ofValues (values content) = some content := by
    intro content
    rfl
  divided : template.divided = true := by decide

namespace Form

variable {Content : Type} (form : Form Content)

def text (content : Content) : String :=
  form.template.fill (form.values content)

def read? (text : String) : Option Content :=
  (form.template.read? text.toList).bind form.ofValues

def Fits (content : Content) : Prop :=
  form.template.Fits (form.values content)

variable {form} {content : Content}

theorem read?_text (fits : form.Fits content) :
    form.read? (form.text content) = some content := by
  rw [read?, text, Template.read?_fill form.divided fits, Option.bind_some,
    form.ofValues_values]

/-- A text of another form is not read, if the two differ from the beginning. -/
theorem read?_of_clashes {Other : Type} {other : Form Other}
    (clashes : form.template.clashes other.template = true) (content : Other) :
    form.read? (other.text content) = none := by
  rw [read?, text, Template.read?_of_clashes clashes, Option.bind_none]

end Form

/-- The value of a text with one gap. -/
def single? : List String → Option String
  | [value] => some value
  | _ => none

@[simp] theorem single?_singleton (value : String) : single? [value] = some value :=
  rfl

/-! ## Lines and headers -/

/-- A form of lines which open blocks, or of lines which do not. -/
structure LineForm (opens : Bool) (Content : Type) extends Form Content where
  begins : template.begins = true := by decide
  unbroken : template.lacks '\n' = true := by decide
  opens_eq : template.opens? (some false) = some opens := by decide

namespace LineForm

variable {opens : Bool} {Content : Type}

/-- Lines that are all alike. -/
def fixed (literal : String)
    (begins : (Template.text literal .done).begins = true := by decide)
    (unbroken : (Template.text literal .done).lacks '\n' = true := by decide)
    (opens_eq : (Template.text literal .done).opens? (some false) = some opens := by decide) :
    LineForm opens Unit where
  template := .text literal .done
  values _ := []
  ofValues
    | [] => some ()
    | _ => none
  divided := rfl
  begins
  unbroken
  opens_eq

/-- Lines with one value, which may be anything, between fixed texts. -/
def around (front back : String)
    (begins : (Template.text front (.last back)).begins = true := by decide)
    (unbroken : (Template.text front (.last back)).lacks '\n' = true := by decide)
    (opens_eq : (Template.text front (.last back)).opens? (some false) = some opens := by decide) :
    LineForm opens String where
  template := .text front (.last back)
  values value := [value]
  ofValues := single?
  ofValues_values := single?_singleton
  divided := rfl
  begins
  unbroken
  opens_eq

theorem fixed_fits {literal : String} {begins unbroken}
    {opens_eq : (Template.text literal .done).opens? (some false) = some opens} :
    (fixed literal begins unbroken opens_eq).Fits () :=
  trivial

@[simp] theorem text_around {front back : String} {begins unbroken}
    {opens_eq : (Template.text front (.last back)).opens? (some false) = some opens}
    (value : String) :
    (around front back begins unbroken opens_eq).text value = front ++ value ++ back :=
  String.append_assoc.symm

section Content

variable {form : LineForm opens Content} {content : Content}

theorem flush_text (fits : form.Fits content) : Flush (form.text content) := by
  obtain ⟨first, isFirst, notSpace, -⟩ := Template.begins_fill form.begins fits
  refine ⟨Template.lacks_fill form.unbroken fits, fun space => notSpace ?_⟩
  rw [Form.text, isFirst] at space
  exact Option.some.inj space

theorem not_closes_text (fits : form.Fits content) : ¬ Code.Closes (form.text content) := by
  obtain ⟨first, isFirst, -, notBrace⟩ := Template.begins_fill form.begins fits
  intro closes
  rw [Code.Closes, Form.text, isFirst] at closes
  exact notBrace (Option.some.inj closes)

theorem opens_text_iff (fits : form.Fits content) :
    Code.Opens (form.text content) ↔ opens = true := by
  have nothing (other : Bool) (told : some false = some other) :
      Code.Opens "" ↔ other = true := by
    cases told
    decide
  simpa [Form.text] using Template.opens_fill nothing fits form.opens_eq

end Content

theorem wellFormed_line {form : LineForm false Content} {content : Content}
    (fits : form.Fits content) : (Code.line (form.text content)).WellFormed :=
  ⟨flush_text fits, not_closes_text fits, by simp [opens_text_iff fits]⟩

theorem wellFormed_block {form : LineForm true Content} {content : Content}
    (fits : form.Fits content) {body : List Code} (wellFormed : Code.AllWellFormed body) :
    (Code.block (form.text content) body).WellFormed :=
  ⟨flush_text fits, not_closes_text fits, (opens_text_iff fits).2 rfl, wellFormed⟩

/-! ### Lists of lines -/

section Lines

variable (form : LineForm false Content)

def lines (contents : List Content) : List Code :=
  contents.map fun content => .line (form.text content)

/-- The content of a part that is a line of the form. -/
def lineOf? : Code → Option Content
  | .line text => form.read? text
  | .block .. => none

@[simp] theorem linesOf_lines (contents : List Content) :
    Code.linesOf (form.lines contents) = contents.map form.text := by
  induction contents with
  | nil => rfl
  | cons content contents ih =>
    rw [lines] at ih ⊢
    rw [List.map_cons, List.map_cons, Code.linesOf, ih]
    rfl

variable {form} {contents : List Content} (fits : ∀ content ∈ contents, form.Fits content)
include fits

@[simp] theorem mapM_lineOf?_lines : (form.lines contents).mapM form.lineOf? = some contents :=
  mapM_map_eq_some fun content member => Form.read?_text (fits content member)

@[simp] theorem filterMap_lineOf?_lines : (form.lines contents).filterMap form.lineOf? = contents :=
  filterMap_map_eq_self fun content member => Form.read?_text (fits content member)

theorem allWellFormed_lines : Code.AllWellFormed (form.lines contents) := by
  rw [Code.allWellFormed_iff]
  intro code member
  obtain ⟨content, inContents, rfl⟩ := List.mem_map.1 member
  exact wellFormed_line (fits content inContents)

end Lines

end LineForm

end Reckon.Schema
