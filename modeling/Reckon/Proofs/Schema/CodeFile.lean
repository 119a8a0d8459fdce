import Reckon.Proofs.Schema.Form

/-!
# Files of generated code

What a file of generated code says, part by part, apart from how it is written. The code is
written in lines of fixed forms, and everything that it says can be read back from it.
-/

namespace Reckon.Schema

/-! ## Lists in a line -/

/-- Some texts in one line. -/
def joined (parts : List String) : String :=
  ", ".intercalate parts

/-- The texts between the commas of a line. -/
def parts (line : String) : List String :=
  if line.isEmpty then [] else (line.toList.splitOn ',').map unindented

/-- A text that can be in a list: there is something in it, no comma, and no space in front. -/
def Listed (part : String) : Prop :=
  part ≠ "" ∧ ',' ∉ part.toList ∧ part.toList.head? ≠ some ' '

theorem joined_ne_empty {part : String} (listed : Listed part) (others : List String) :
    joined (part :: others) ≠ "" := by
  intro empty
  cases others with
  | nil => exact listed.1 (by simpa [joined] using empty)
  | cons other others =>
    rw [joined, String.intercalate_cons_cons] at empty
    simp at empty

theorem splitOn_joined {part : String} {others : List String}
    (listed : ∀ other ∈ part :: others, Listed other) :
    (joined (part :: others)).toList.splitOn ',' =
      part.toList :: others.map (' ' :: ·.toList) := by
  induction others generalizing part with
  | nil =>
    rw [joined, String.intercalate_singleton]
    exact List.splitOn_eq_singleton (listed part (by simp)).2.1
  | cons other others ih =>
    obtain ⟨listedPart, listedOthers⟩ := List.forall_mem_cons.1 listed
    rw [joined, String.intercalate_cons_cons, String.toList_append, String.toList_append,
      List.append_assoc]
    change (part.toList ++ ',' :: ' ' :: (joined (other :: others)).toList).splitOn ',' = _
    -- the space behind the comma is in front of the next part
    rw [List.splitOn_append_cons_self_of_not_mem listedPart.2.1,
      List.splitOn_cons_eq_if_modifyHead, if_neg (by decide), ih listedOthers]
    rfl

/-- A list in a line is read back. -/
theorem parts_joined {list : List String} (listed : ∀ part ∈ list, Listed part) :
    parts (joined list) = list := by
  cases list with
  | nil => rfl
  | cons part others =>
    obtain ⟨listedPart, listedOthers⟩ := List.forall_mem_cons.1 listed
    have nonempty : ¬ (joined (part :: others)).isEmpty = true := by
      simpa using joined_ne_empty listedPart others
    have first : unindented part.toList = part := unindented_append listedPart.2.2 0
    have later : others.map (unindented ∘ (' ' :: ·.toList)) = others :=
      (List.map_congr_left fun other member =>
        unindented_append (listedOthers other member).2.2 1).trans (List.map_id others)
    rw [parts, if_neg nonempty, splitOn_joined listed, List.map_cons, List.map_map, first, later]

/-! ## What lines say -/

/-- A name and its type: a field of a record, a parameter, or a function that reads a field. -/
structure Binding where
  name : String
  type : String
  deriving DecidableEq

def Binding.values (binding : Binding) : List String :=
  [binding.name, binding.type]

def Binding.ofValues : List String → Option Binding
  | [name, type] => some ⟨name, type⟩
  | _ => none

/-- A method of the visitor, for nodes of a record type. -/
structure Method where
  name : String
  parameter : String
  record : String
  deriving DecidableEq

/-- A variant of the sum type, with the record type that it includes. -/
structure Variant where
  name : String
  record : String
  deriving DecidableEq

/-- An arm of the dispatch: a variant, a name for what is in it, and what accepts the visitor. -/
structure Arm where
  base : String
  variant : String
  name : String
  receiver : String
  deriving DecidableEq

/-- How a constructor fills a field from a parameter. -/
structure Filling where
  field : String
  parameter : String
  deriving DecidableEq

/-- A function that reads a field: its own name and type, and the field. -/
structure Accessor where
  name : String
  type : String
  field : String
  deriving DecidableEq

/-- The inclusion of a record type into a sum type: the two types that it is for, the parameter
that is converted, and the variant that is made of a value. -/
structure Inclusion where
  record : String
  base : String
  parameter : Binding
  made : String
  variant : String
  value : String
  deriving DecidableEq

/-- What the code for a record type says. -/
structure RecordCode where
  name : String
  fields : List Binding
  owner : String
  parameters : List Binding
  fillings : List Filling
  accessors : List Accessor
  visits : String
  inclusion : Inclusion
  deriving DecidableEq

/-- What a file of generated code says. -/
structure CodeFile where
  uses : List String
  methods : List Method
  base : String
  variants : List Variant
  owner : String
  arms : List Arm
  records : List RecordCode
  deriving DecidableEq

/-! ## Forms of lines -/

def useForm : LineForm false String :=
  .around "use " ";"

def visitorForm : LineForm true Unit :=
  .fixed "pub trait Visitor<T> \x7b"

def methodForm : LineForm false Method where
  template := .text "fn " <| .gap .name <| .text "(&mut self, " <| .gap .name <|
    .text ": &" <| .gap .name <| .text ") -> T;" .done
  values method := [method.name, method.parameter, method.record]
  ofValues
    | [name, parameter, record] => some ⟨name, parameter, record⟩
    | _ => none

def sumForm : LineForm true String :=
  .around "pub enum " " \x7b"

def variantForm : LineForm false Variant where
  template := .gap .name <| .text "(" <| .gap .name <| .text ")," .done
  values variant := [variant.name, variant.record]
  ofValues
    | [name, record] => some ⟨name, record⟩
    | _ => none

def implForm : LineForm true String :=
  .around "impl " " \x7b"

def acceptForm : LineForm true Unit :=
  .fixed "pub fn accept<T>(&self, visitor: &mut dyn Visitor<T>) -> T \x7b"

def matchForm : LineForm true Unit :=
  .fixed "match self \x7b"

def armForm : LineForm false Arm where
  template := .gap .name <| .text "::" <| .gap .name <| .text "(" <| .gap .name <|
    .text ") => " <| .gap .name <| .text ".accept(visitor)," .done
  values arm := [arm.base, arm.variant, arm.name, arm.receiver]
  ofValues
    | [base, variant, name, receiver] => some ⟨base, variant, name, receiver⟩
    | _ => none

def structForm : LineForm true String :=
  .around "pub struct " " \x7b"

def fieldForm : LineForm false Binding where
  template := .gap .name <| .text ": " <| .gap .word <| .text "," .done
  values := Binding.values
  ofValues := Binding.ofValues

def constructorForm : LineForm true String :=
  .around "pub fn new(" ") -> Self \x7b"

def filledForm : LineForm false String :=
  .around "Self \x7b " " \x7d"

def emptyForm : LineForm false Unit :=
  .fixed "Self \x7b\x7d"

def accessorForm : LineForm true Binding where
  template := .text "pub fn " <| .gap .name <| .text "(&self) -> &" <| .gap .word <|
    .text " \x7b" .done
  values := Binding.values
  ofValues := Binding.ofValues

def readForm : LineForm false String where
  template := .text "&self." <| .gap .name .done
  values field := [field]
  ofValues := single?
  ofValues_values := single?_singleton

def visitForm : LineForm false String :=
  .around "visitor." "(self)"

def inclusionForm : LineForm true (String × String) where
  template := .text "impl From<" <| .gap .name <| .text "> for " <| .gap .name <|
    .text " \x7b" .done
  values types := [types.1, types.2]
  ofValues
    | [record, base] => some (record, base)
    | _ => none

def conversionForm : LineForm true Binding where
  template := .text "fn from(" <| .gap .name <| .text ": " <| .gap .name <|
    .text ") -> Self \x7b" .done
  values := Binding.values
  ofValues := Binding.ofValues

def makeForm : LineForm false (String × String × String) where
  template := .gap .name <| .text "::" <| .gap .name <| .text "(" <| .gap .name <|
    .text ")" .done
  values content := [content.1, content.2.1, content.2.2]
  ofValues
    | [base, variant, value] => some (base, variant, value)
    | _ => none

/-- A parameter in the list of a constructor. -/
def parameterForm : Form Binding where
  template := .gap .name <| .text ": " <| .gap .word .done
  values := Binding.values
  ofValues := Binding.ofValues

/-- A field in the list of a constructor that is filled from another name. -/
def fillingForm : Form Filling where
  template := .gap .name <| .text ": " <| .gap .name .done
  values filling := [filling.field, filling.parameter]
  ofValues
    | [field, parameter] => some ⟨field, parameter⟩
    | _ => none

/-! ### The forms written out -/

theorem useForm_text (path : String) : useForm.text path = s!"use {path};" :=
  LineForm.text_around path

theorem sumForm_text (name : String) : sumForm.text name = s!"pub enum {name} \x7b" :=
  LineForm.text_around name

theorem implForm_text (name : String) : implForm.text name = s!"impl {name} \x7b" :=
  LineForm.text_around name

theorem structForm_text (name : String) : structForm.text name = s!"pub struct {name} \x7b" :=
  LineForm.text_around name

theorem constructorForm_text (list : String) :
    constructorForm.text list = s!"pub fn new({list}) -> Self \x7b" :=
  LineForm.text_around list

theorem filledForm_text (list : String) : filledForm.text list = s!"Self \x7b {list} \x7d" :=
  LineForm.text_around list

theorem visitForm_text (method : String) : visitForm.text method = s!"visitor.{method}(self)" :=
  LineForm.text_around method

theorem methodForm_text (method : Method) :
    methodForm.text method =
      s!"fn {method.name}(&mut self, {method.parameter}: &{method.record}) -> T;" := by
  apply String.toList_injective
  simp [Form.text, methodForm, Template.fill, toString]

theorem variantForm_text (variant : Variant) :
    variantForm.text variant = s!"{variant.name}({variant.record})," := by
  apply String.toList_injective
  simp [Form.text, variantForm, Template.fill, toString]

theorem armForm_text (arm : Arm) :
    armForm.text arm =
      s!"{arm.base}::{arm.variant}({arm.name}) => {arm.receiver}.accept(visitor)," := by
  apply String.toList_injective
  simp [Form.text, armForm, Template.fill, toString]

theorem fieldForm_text (binding : Binding) :
    fieldForm.text binding = s!"{binding.name}: {binding.type}," := by
  apply String.toList_injective
  simp [Form.text, fieldForm, Binding.values, Template.fill, toString]

theorem parameterForm_text (binding : Binding) :
    parameterForm.text binding = s!"{binding.name}: {binding.type}" := by
  apply String.toList_injective
  simp [Form.text, parameterForm, Binding.values, Template.fill, toString]

theorem fillingForm_text (filling : Filling) :
    fillingForm.text filling = s!"{filling.field}: {filling.parameter}" := by
  apply String.toList_injective
  simp [Form.text, fillingForm, Template.fill, toString]

theorem accessorForm_text (binding : Binding) :
    accessorForm.text binding = s!"pub fn {binding.name}(&self) -> &{binding.type} \x7b" := by
  apply String.toList_injective
  simp [Form.text, accessorForm, Binding.values, Template.fill, toString]

theorem readForm_text (field : String) : readForm.text field = s!"&self.{field}" := by
  apply String.toList_injective
  simp [Form.text, readForm, Template.fill, toString]

theorem inclusionForm_text (record base : String) :
    inclusionForm.text (record, base) = s!"impl From<{record}> for {base} \x7b" := by
  apply String.toList_injective
  simp [Form.text, inclusionForm, Template.fill, toString]

theorem conversionForm_text (binding : Binding) :
    conversionForm.text binding = s!"fn from({binding.name}: {binding.type}) -> Self \x7b" := by
  apply String.toList_injective
  simp [Form.text, conversionForm, Binding.values, Template.fill, toString]

theorem makeForm_text (base variant value : String) :
    makeForm.text (base, variant, value) = s!"{base}::{variant}({value})" := by
  apply String.toList_injective
  simp [Form.text, makeForm, Template.fill, toString]

/-! ## The code -/

/-- How a field is filled; the parameter alone is enough where both have one name. -/
def Filling.text (filling : Filling) : String :=
  if filling.field = filling.parameter then filling.parameter else fillingForm.text filling

def constructorLine (fillings : List Filling) : String :=
  let list := joined (fillings.map Filling.text)
  if list.isEmpty then emptyForm.text () else filledForm.text list

def Accessor.code (accessor : Accessor) : Code :=
  .block (accessorForm.text ⟨accessor.name, accessor.type⟩)
    [.line (readForm.text accessor.field)]

def Inclusion.code (inclusion : Inclusion) : Code :=
  .block (inclusionForm.text (inclusion.record, inclusion.base))
    [.block (conversionForm.text inclusion.parameter)
      [.line (makeForm.text (inclusion.made, inclusion.variant, inclusion.value))]]

def blankLine : Code :=
  .line ""

def derivedLine : Code :=
  .line "#[derive(Debug, Clone, PartialEq)]"

namespace RecordCode

def constructorCode (record : RecordCode) : Code :=
  .block (constructorForm.text (joined (record.parameters.map parameterForm.text)))
    [.line (constructorLine record.fillings)]

def acceptCode (record : RecordCode) : Code :=
  .block (acceptForm.text ()) [.line (visitForm.text record.visits)]

def declarationCode (record : RecordCode) : Code :=
  .block (structForm.text record.name) (fieldForm.lines record.fields)

def functionsCode (record : RecordCode) : Code :=
  .block (implForm.text record.owner)
    (record.constructorCode ::
      record.accessors.flatMap (fun accessor => [blankLine, accessor.code]) ++
      [blankLine, record.acceptCode])

def code (record : RecordCode) : List Code :=
  [blankLine, derivedLine, record.declarationCode, blankLine, record.functionsCode, blankLine,
   record.inclusion.code]

end RecordCode

namespace CodeFile

def visitorCode (file : CodeFile) : Code :=
  .block (visitorForm.text ()) (methodForm.lines file.methods)

def sumCode (file : CodeFile) : Code :=
  .block (sumForm.text file.base) (variantForm.lines file.variants)

def dispatchCode (file : CodeFile) : Code :=
  .block (implForm.text file.owner)
    [.block (acceptForm.text ()) [.block (matchForm.text ()) (armForm.lines file.arms)]]

def code (file : CodeFile) : List Code :=
  [.line "// Generated by ast_generator, do not modify."] ++ useForm.lines file.uses ++
  [blankLine, file.visitorCode, blankLine, derivedLine, file.sumCode, blankLine,
   file.dispatchCode] ++
  file.records.flatMap RecordCode.code

def toText (file : CodeFile) : String :=
  layout (Code.linesOf file.code)

end CodeFile

end Reckon.Schema
