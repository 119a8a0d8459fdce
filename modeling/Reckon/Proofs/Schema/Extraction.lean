import Reckon.Proofs.Schema.ReadCode
import Reckon.Proofs.Schema.Spelling

/-!
# Extraction of a grammar

The code for a grammar says everything that the grammar does. This module reads it all back:
the grammar from nothing but uses, the sum type and the records, and the other parts of the
code one by one, in the order of the rules.
-/

namespace Reckon.Schema

namespace NodeModel

variable (model : NodeModel)

def recordCode (rule : Rule) : RecordCode where
  name := model.recordName rule
  fields := rule.fields.map fun field => ⟨field.identifier, field.type⟩
  owner := model.recordName rule
  parameters := rule.fields.map fun field => ⟨field.parameter, field.type⟩
  fillings := rule.fields.map fun field => ⟨field.identifier, field.parameter⟩
  accessors := rule.fields.map fun field =>
    ⟨field.identifier, field.accessorType, field.identifier⟩
  visits := model.visitMethod rule
  inclusion :=
    { record := model.recordName rule
      base := model.base
      parameter := ⟨model.parameter, model.recordName rule⟩
      made := model.base
      variant := rule.typeName
      value := model.parameter }

def file : CodeFile where
  uses := model.uses
  methods := model.rules.map fun rule =>
    ⟨model.visitMethod rule, model.parameter, model.recordName rule⟩
  base := model.base
  variants := model.rules.map fun rule => ⟨rule.typeName, model.recordName rule⟩
  owner := model.base
  arms := model.rules.map fun rule =>
    ⟨model.base, rule.typeName, model.parameter, model.parameter⟩
  records := model.rules.map model.recordCode

/-! ## The lines of the code -/

theorem text_filling (field : Field) :
    Filling.text ⟨field.identifier, field.parameter⟩ = field.initializer := by
  rw [Filling.text, Field.initializer]
  split
  · rfl
  · exact fillingForm_text _

theorem constructorLine_recordCode (rule : Rule) :
    constructorLine (model.recordCode rule).fillings = constructorBody rule := by
  have texts : (model.recordCode rule).fillings.map Filling.text =
      rule.fields.map Field.initializer := by
    rw [recordCode, List.map_map]
    exact List.map_congr_left fun field _ => text_filling field
  rw [constructorLine, constructorBody, texts, joined]
  by_cases empty : (", ".intercalate (rule.fields.map Field.initializer)).isEmpty = true
  · rw [if_pos empty, if_pos empty]
    rfl
  · rw [if_neg empty, if_neg empty]
    exact filledForm_text _

theorem linesOf_accessors (rule : Rule) :
    Code.linesOf ((model.recordCode rule).accessors.flatMap fun accessor =>
      [blankLine, accessor.code]) = rule.fields.flatMap accessorLines := by
  rw [Code.linesOf_flatMap, recordCode, List.flatMap_map]
  congr 1
  funext field
  simp only [Accessor.code, Code.linesOf, Code.lines, accessorForm_text, readForm_text]
  rfl

theorem linesOf_recordCode (rule : Rule) :
    Code.linesOf (model.recordCode rule).code = "" :: model.recordLines rule := by
  have parameters : (model.recordCode rule).parameters.map parameterForm.text =
      rule.fields.map fun field => s!"{field.parameter}: {field.type}" := by
    rw [recordCode, List.map_map]
    exact List.map_congr_left fun field _ => parameterForm_text _
  have fields : (model.recordCode rule).fields.map fieldForm.text =
      rule.fields.map fun field => s!"{field.identifier}: {field.type}," := by
    rw [recordCode, List.map_map]
    exact List.map_congr_left fun field _ => fieldForm_text _
  rw [RecordCode.code, recordLines]
  simp only [Code.linesOf, Code.linesOf_append, Code.lines, RecordCode.declarationCode,
    RecordCode.functionsCode, RecordCode.constructorCode, RecordCode.acceptCode, Inclusion.code,
    LineForm.linesOf_lines, linesOf_accessors, constructorLine_recordCode, parameters, fields,
    structForm_text, implForm_text, constructorForm_text, visitForm_text, inclusionForm_text,
    conversionForm_text, makeForm_text, List.append_assoc, List.cons_append, List.nil_append]
  rfl

theorem linesOf_file : Code.linesOf model.file.code = model.lines := by
  have uses : model.file.uses.map useForm.text = model.uses.map fun path => s!"use {path};" :=
    List.map_congr_left fun path _ => useForm_text path
  have methods : model.file.methods.map methodForm.text = model.rules.map fun rule =>
      s!"fn {model.visitMethod rule}(&mut self, {model.parameter}: " ++
        s!"&{model.recordName rule}) -> T;" := by
    rw [file, List.map_map]
    refine List.map_congr_left fun rule _ => (methodForm_text _).trans ?_
    apply String.toList_injective
    simp [toString]
  have variants : model.file.variants.map variantForm.text = model.rules.map fun rule =>
      s!"{rule.typeName}({model.recordName rule})," := by
    rw [file, List.map_map]
    exact List.map_congr_left fun rule _ => variantForm_text _
  have arms : model.file.arms.map armForm.text = model.rules.map fun rule =>
      s!"{model.base}::{rule.typeName}({model.parameter}) => " ++
        s!"{model.parameter}.accept(visitor)," := by
    rw [file, List.map_map]
    refine List.map_congr_left fun rule _ => (armForm_text _).trans ?_
    apply String.toList_injective
    simp [toString]
  have records : Code.linesOf (model.file.records.flatMap RecordCode.code) =
      model.rules.flatMap fun rule => "" :: model.recordLines rule := by
    rw [Code.linesOf_flatMap, file, List.flatMap_map]
    congr 1
    funext rule
    exact model.linesOf_recordCode rule
  rw [CodeFile.code, lines, visitorLines, sumLines]
  simp only [Code.linesOf, Code.linesOf_append, Code.lines, CodeFile.visitorCode,
    CodeFile.sumCode, CodeFile.dispatchCode, LineForm.linesOf_lines, uses, methods, variants,
    arms, records, sumForm_text, implForm_text, List.append_assoc, List.cons_append,
    List.nil_append]
  rfl

theorem toText_file : model.file.toText = model.toText := by
  rw [CodeFile.toText, linesOf_file, toText]

end NodeModel

/-! ## Names and types in the code -/

theorem IsName.holds {name : String} (isName : IsName name) : Gap.name.Holds name := by
  intro character member
  simp [Gap.accepts, isName character member]

theorem IsName.lineBreak_not_mem {name : String} (isName : IsName name) : '\n' ∉ name.toList :=
  fun lineBreak => absurd (isName '\n' lineBreak) (by decide)

/-- A field with a name and a type that can be in generated code. -/
structure Field.Sound (field : Field) : Prop where
  name : IsName field.name
  named : field.name ≠ ""
  type : Gap.word.Holds field.type

namespace Field

variable {field : Field}

theorem holds_identifier (name : IsName field.name) : Gap.name.Holds field.identifier := by
  rw [identifier]
  split
  · intro character member
    rw [String.toList_append, List.mem_append] at member
    rcases member with inMark | inName
    · have marks : "r#".toList.all Gap.name.accepts = true := by decide
      exact List.all_eq_true.1 marks character inMark
    · exact name.holds character inName
  · exact name.holds

theorem holds_accessorType (type : Gap.word.Holds field.type) :
    Gap.word.Holds field.accessorType := by
  unfold accessorType
  split
  next inner boxed =>
    split
    · intro character member
      rw [String.toList_ofList] at member
      refine type character ?_
      rw [boxed]
      simp [(List.dropLast_sublist inner).subset member]
    · exact type
  · exact type

end Field

/-- A kind of node with names and types that can be in generated code. -/
structure Rule.Sound (rule : Rule) : Prop where
  typeName : IsName rule.typeName
  fields : ∀ field ∈ rule.fields, field.Sound

/-- A grammar with paths, names and types that can be in generated code. -/
structure NodeModel.Sound (model : NodeModel) : Prop where
  uses : ∀ path ∈ model.uses, '\n' ∉ path.toList
  base : IsName model.base
  rules : ∀ rule ∈ model.rules, rule.Sound

namespace NodeModel

variable {model : NodeModel} (sound : model.Sound)
include sound

theorem isName_parameter : IsName model.parameter := sound.base.snakeCase

theorem isName_recordName {rule : Rule} (soundRule : rule.Sound) :
    IsName (model.recordName rule) :=
  soundRule.typeName.append sound.base

theorem isName_visitMethod {rule : Rule} (soundRule : rule.Sound) :
    IsName (model.visitMethod rule) := by
  have visit : IsName "visit_" := by decide
  have separator : IsName "_" := by decide
  exact ((visit.append soundRule.typeName.snakeCase).append separator).append
    sound.base.snakeCase

theorem recordCode_fits {rule : Rule} (soundRule : rule.Sound) :
    (model.recordCode rule).Fits where
  name := (isName_recordName sound soundRule).lineBreak_not_mem
  fields := by
    refine List.forall_mem_map.2 fun field member => ?_
    have soundField := soundRule.fields field member
    exact ⟨Field.holds_identifier soundField.name, soundField.type, trivial⟩
  owner := (isName_recordName sound soundRule).lineBreak_not_mem
  parameters := by
    refine List.forall_mem_map.2 fun field member => ?_
    have soundField := soundRule.fields field member
    exact ⟨(Field.isName_parameter soundField.name).holds, soundField.type, trivial⟩
  fillings := by
    refine List.forall_mem_map.2 fun field member => ?_
    have soundField := soundRule.fields field member
    exact ⟨⟨Field.holds_identifier soundField.name,
      (Field.isName_parameter soundField.name).holds, trivial⟩,
      Field.parameter_ne_empty soundField.named⟩
  accessors := by
    refine List.forall_mem_map.2 fun field member => ?_
    have soundField := soundRule.fields field member
    have identifier := Field.holds_identifier soundField.name
    exact ⟨⟨identifier, Field.holds_accessorType soundField.type, trivial⟩, identifier, trivial⟩
  visits := (isName_visitMethod sound soundRule).lineBreak_not_mem
  inclusion := by
    have record := (isName_recordName sound soundRule).holds
    have parameter := (isName_parameter sound).holds
    exact ⟨⟨record, sound.base.holds, trivial⟩, ⟨parameter, record, trivial⟩,
      sound.base.holds, soundRule.typeName.holds, parameter, trivial⟩

theorem file_fits : model.file.Fits where
  uses := sound.uses
  methods := by
    refine List.forall_mem_map.2 fun rule member => ?_
    have soundRule := sound.rules rule member
    exact ⟨(isName_visitMethod sound soundRule).holds, (isName_parameter sound).holds,
      (isName_recordName sound soundRule).holds, trivial⟩
  base := sound.base.lineBreak_not_mem
  variants := by
    refine List.forall_mem_map.2 fun rule member => ?_
    have soundRule := sound.rules rule member
    exact ⟨soundRule.typeName.holds, (isName_recordName sound soundRule).holds, trivial⟩
  owner := sound.base.lineBreak_not_mem
  arms := by
    refine List.forall_mem_map.2 fun rule member => ?_
    have parameter := (isName_parameter sound).holds
    exact ⟨sound.base.holds, (sound.rules rule member).typeName.holds, parameter, parameter,
      trivial⟩
  records :=
    List.forall_mem_map.2 fun rule member => recordCode_fits sound (sound.rules rule member)

end NodeModel

/-! ## Declarations -/

/-- The content of the header of a block of a form, and what is in the block. -/
def LineForm.blockOf? {Content : Type} (form : LineForm true Content) :
    Code → Option (Content × List Code)
  | .line _ => none
  | .block header body => (form.read? header).map (·, body)

/-- The declarations in some code: uses, sum types and record types. -/
def declarations (code : List Code) : List Code :=
  code.filter fun part =>
    (useForm.lineOf? part).isSome || (sumForm.blockOf? part).isSome ||
      (structForm.blockOf? part).isSome

/-- The kind of node that a record type is for. -/
def readRule? (base : String) : String × List Code → Option Rule
  | (name, fields) => do
      let typeName ← name.toList.dropSuffix? base.toList
      let bindings ← fields.mapM fieldForm.lineOf?
      some ⟨String.ofList typeName,
        bindings.map fun binding => ⟨binding.type, unmarked binding.name⟩⟩

/-- The grammar in some declarations, one of which is that of a sum type. -/
def readModel? (code : List Code) : Option NodeModel :=
  match code.filterMap sumForm.blockOf? with
  | [(base, _)] =>
      ((code.filterMap structForm.blockOf?).mapM (readRule? base)).map
        (NodeModel.mk base (code.filterMap useForm.lineOf?))
  | _ => none

/-- Extract a grammar from its code, of which only the declarations are looked at. -/
def extract? (text : String) : Option NodeModel :=
  (Code.ofText text).bind fun code => readModel? (declarations code)

def CodeFile.ofText? (text : String) : Option CodeFile :=
  (Code.ofText text).bind CodeFile.ofCode?

theorem filterMap_filter_of_imp {α β : Type} {keep : α → Bool} {read : α → Option β}
    (kept : ∀ item, (read item).isSome = true → keep item = true) (items : List α) :
    (items.filter keep).filterMap read = items.filterMap read := by
  rw [List.filterMap_filter]
  refine List.filterMap_congr fun item _ => ?_
  split
  · rfl
  next out =>
    have unread : ¬ (read item).isSome = true := fun isRead => out (kept item isRead)
    exact (Option.not_isSome_iff_eq_none.1 unread).symm

/-- The declarations are all that a grammar is read from. -/
theorem readModel?_declarations (code : List Code) :
    readModel? (declarations code) = readModel? code := by
  rw [readModel?, readModel?, declarations]
  rw [filterMap_filter_of_imp (by simp +contextual), filterMap_filter_of_imp (by simp +contextual),
    filterMap_filter_of_imp (by simp +contextual)]

namespace LineForm

variable {Content : Type} {form : LineForm true Content}

theorem blockOf?_block {content : Content} (fits : form.Fits content) (body : List Code) :
    form.blockOf? (.block (form.text content) body) = some (content, body) := by
  rw [blockOf?, Form.read?_text fits, Option.map_some]

theorem blockOf?_of_clashes {Other : Type} {other : LineForm true Other}
    (clashes : form.template.clashes other.template = true) (content : Other) (body : List Code) :
    form.blockOf? (.block (other.text content) body) = none := by
  rw [blockOf?, Form.read?_of_clashes clashes, Option.map_none]

end LineForm

/-- Only blocks count for what is read from blocks. -/
theorem LineForm.filterMap_blockOf?_filter {Content : Type} (form : LineForm true Content)
    (code : List Code) :
    (code.filter Code.isBlock).filterMap form.blockOf? = code.filterMap form.blockOf? := by
  refine filterMap_filter_of_imp (fun part isRead => ?_) code
  cases part with
  | line => cases isRead
  | block => rfl

namespace RecordCode

variable {record : RecordCode}

theorem filterMap_sums : record.code.filterMap sumForm.blockOf? = [] := by
  have declaration : sumForm.blockOf? record.declarationCode = none :=
    LineForm.blockOf?_of_clashes (by decide) _ _
  have functions : sumForm.blockOf? record.functionsCode = none :=
    LineForm.blockOf?_of_clashes (by decide) _ _
  have inclusion : sumForm.blockOf? record.inclusion.code = none :=
    LineForm.blockOf?_of_clashes (by decide) _ _
  rw [← LineForm.filterMap_blockOf?_filter, filter_code, List.filterMap_cons, declaration,
    List.filterMap_cons, functions, List.filterMap_cons, inclusion, List.filterMap_nil]

theorem filterMap_records (fits : structForm.Fits record.name) :
    record.code.filterMap structForm.blockOf? =
      [(record.name, fieldForm.lines record.fields)] := by
  have declaration : structForm.blockOf? record.declarationCode =
      some (record.name, fieldForm.lines record.fields) :=
    LineForm.blockOf?_block fits _
  have functions : structForm.blockOf? record.functionsCode = none :=
    LineForm.blockOf?_of_clashes (by decide) _ _
  have inclusion : structForm.blockOf? record.inclusion.code = none :=
    LineForm.blockOf?_of_clashes (by decide) _ _
  rw [← LineForm.filterMap_blockOf?_filter, filter_code, List.filterMap_cons, declaration,
    List.filterMap_cons, functions, List.filterMap_cons, inclusion, List.filterMap_nil]

end RecordCode

namespace CodeFile

variable {file : CodeFile} (fits : file.Fits)
include fits

theorem filterMap_sums :
    file.code.filterMap sumForm.blockOf? = [(file.base, variantForm.lines file.variants)] := by
  have visitor : sumForm.blockOf? file.visitorCode = none :=
    LineForm.blockOf?_of_clashes (by decide) _ _
  have sum : sumForm.blockOf? file.sumCode =
      some (file.base, variantForm.lines file.variants) :=
    LineForm.blockOf?_block fits.base _
  have dispatch : sumForm.blockOf? file.dispatchCode = none :=
    LineForm.blockOf?_of_clashes (by decide) _ _
  have records : (file.records.flatMap RecordCode.code).filterMap sumForm.blockOf? = [] := by
    rw [List.filterMap_flatMap, List.flatMap_eq_nil_iff]
    exact fun record _ => RecordCode.filterMap_sums
  rw [← LineForm.filterMap_blockOf?_filter, filter_code, List.filterMap_cons, visitor,
    List.filterMap_cons, sum, List.filterMap_cons, dispatch, LineForm.filterMap_blockOf?_filter,
    records]

theorem filterMap_records :
    file.code.filterMap structForm.blockOf? =
      file.records.map fun record => (record.name, fieldForm.lines record.fields) := by
  have visitor : structForm.blockOf? file.visitorCode = none :=
    LineForm.blockOf?_of_clashes (by decide) _ _
  have sum : structForm.blockOf? file.sumCode = none :=
    LineForm.blockOf?_of_clashes (by decide) _ _
  have dispatch : structForm.blockOf? file.dispatchCode = none :=
    LineForm.blockOf?_of_clashes (by decide) _ _
  have records : (file.records.flatMap RecordCode.code).filterMap structForm.blockOf? =
      file.records.map fun record => (record.name, fieldForm.lines record.fields) := by
    rw [List.filterMap_flatMap, List.map_eq_flatMap]
    exact List.flatMap_congr fun record member =>
      RecordCode.filterMap_records (fits.records record member).name
  rw [← LineForm.filterMap_blockOf?_filter, filter_code, List.filterMap_cons, visitor,
    List.filterMap_cons, sum, List.filterMap_cons, dispatch, LineForm.filterMap_blockOf?_filter,
    records]

end CodeFile

/-! ## The grammar -/

namespace NodeModel

variable {model : NodeModel}

theorem readRule?_declaration {rule : Rule} (sound : model.Sound) (soundRule : rule.Sound) :
    readRule? model.base ((model.recordCode rule).name,
      fieldForm.lines (model.recordCode rule).fields) = some rule := by
  have typeName : (model.recordName rule).toList.dropSuffix? model.base.toList =
      some rule.typeName.toList :=
    List.dropSuffix?_eq_some_iff.2 ⟨model.base.toList, String.toList_append, BEq.rfl⟩
  have bindings := LineForm.mapM_lineOf?_lines (recordCode_fits sound soundRule).fields
  have fields : (model.recordCode rule).fields.map (fun binding =>
      (⟨binding.type, unmarked binding.name⟩ : Field)) = rule.fields := by
    rw [recordCode, List.map_map]
    refine (List.map_congr_left fun field member => ?_).trans (List.map_id rule.fields)
    have name := Field.unmarked_identifier (soundRule.fields field member).name
    exact congrArg (Field.mk field.type) name
  simp only [readRule?, recordCode] at bindings fields ⊢
  simp only [typeName, bindings, fields, String.ofList_toList, Option.bind_eq_bind,
    Option.bind_some]

theorem readModel?_code (sound : model.Sound) : readModel? model.file.code = some model := by
  have fits := file_fits sound
  have rules : (model.file.records.map fun record =>
      (record.name, fieldForm.lines record.fields)).mapM (readRule? model.base) =
        some model.rules := by
    rw [file, List.map_map]
    exact mapM_map_eq_some fun rule member =>
      readRule?_declaration sound (sound.rules rule member)
  rw [readModel?, CodeFile.filterMap_sums fits, CodeFile.filterMap_records fits,
    CodeFile.filterMap_uses fits]
  dsimp only
  rw [file] at rules ⊢
  rw [rules]
  rfl

theorem ofText_toText (sound : model.Sound) :
    Code.ofText model.toText = some model.file.code := by
  rw [toText, ← linesOf_file]
  exact Code.ofText_layout (CodeFile.allWellFormed_code (file_fits sound))

theorem extract?_toText (sound : model.Sound) : extract? model.toText = some model := by
  rw [extract?, ofText_toText sound, Option.bind_some, readModel?_declarations,
    readModel?_code sound]

/-- Whatever the code for a grammar says is read from its text. -/
theorem ofText?_toText (sound : model.Sound) :
    CodeFile.ofText? model.toText = some model.file := by
  rw [CodeFile.ofText?, toText, ← linesOf_file]
  exact CodeFile.ofText?_layout (file_fits sound)

end NodeModel

theorem define_of_accepted {base : String} {uses lines : List String} {rules : List Rule}
    (accepted : lines.mapM Rule.ofLine = .ok rules) :
    define base uses lines = .ok (NodeModel.mk base uses rules).toText := by
  rw [define, NodeModel.ofLines, accepted]
  rfl

theorem Rule.writable_of_accepted {lines : List String} {rules : List Rule} {rule : Rule}
    (accepted : lines.mapM Rule.ofLine = .ok rules) (member : rule ∈ rules) : rule.Writable := by
  obtain ⟨line, -, reads⟩ := exists_of_mem_mapM accepted member
  exact writable_of_ofLine reads

theorem NodeModel.sound_of_accepted {base : String} {uses lines : List String} {rules : List Rule}
    (accepted : lines.mapM Rule.ofLine = .ok rules)
    (withinLines : ∀ path ∈ uses, '\n' ∉ path.toList) (isName : IsName base)
    (typeNames : ∀ rule ∈ rules, IsName rule.typeName)
    (fieldNames : ∀ rule ∈ rules, ∀ field ∈ rule.fields, IsName field.name) :
    (NodeModel.mk base uses rules).Sound := by
  refine ⟨withinLines, isName, fun rule member => ⟨typeNames rule member, ?_⟩⟩
  intro field inRule
  have writable := (Rule.writable_of_accepted accepted member).fields field inRule
  refine ⟨fieldNames rule member field inRule, ?_, fun character inType => ?_⟩
  · exact mt String.toList_eq_nil_iff.2 writable.name.1
  · have noComma : character ≠ ',' := by
      rintro rfl
      exact writable.comma_not_mem_type inType
    simp [Gap.accepts, writable.type.2 character inType, noComma]

/-- Grammars whose names are names lead to code that tells them: the paths, the name of the sum
type and the rules are found in the declarations, and every part of the code is found for each
rule in turn. -/
theorem define_loses_nothing {base : String} {uses lines : List String} {rules : List Rule}
    (accepted : lines.mapM Rule.ofLine = .ok rules)
    (withinLines : ∀ path ∈ uses, '\n' ∉ path.toList) (isName : IsName base)
    (typeNames : ∀ rule ∈ rules, IsName rule.typeName)
    (fieldNames : ∀ rule ∈ rules, ∀ field ∈ rule.fields, IsName field.name) :
    ∃ text, define base uses lines = .ok text ∧
      extract? text = some ⟨base, uses, rules⟩ ∧
      CodeFile.ofText? text = some (NodeModel.mk base uses rules).file := by
  have sound := NodeModel.sound_of_accepted accepted withinLines isName typeNames fieldNames
  exact ⟨_, define_of_accepted accepted, NodeModel.extract?_toText sound,
    NodeModel.ofText?_toText sound⟩

/-- A grammar with a keyword for a name and with a rule that has no fields is extracted from its
code, and both rules have their methods there. -/
theorem extract?_pair_and_nil :
    ["Pair : Box<Expr> left, Value type", "Nil :"].mapM Rule.ofLine =
        .ok [⟨"Pair", [⟨"Box<Expr>", "left"⟩, ⟨"Value", "type"⟩]⟩, ⟨"Nil", []⟩] ∧
      ∃ text, define "Expr" ["value::Value"] ["Pair : Box<Expr> left, Value type", "Nil :"] =
          .ok text ∧
        extract? text = some ⟨"Expr", ["value::Value"],
          [⟨"Pair", [⟨"Box<Expr>", "left"⟩, ⟨"Value", "type"⟩]⟩, ⟨"Nil", []⟩]⟩ ∧
        (CodeFile.ofText? text).map CodeFile.methods =
          some [⟨"visit_pair_expr", "expr", "PairExpr"⟩,
            ⟨"visit_nil_expr", "expr", "NilExpr"⟩] := by
  have accepted : ["Pair : Box<Expr> left, Value type", "Nil :"].mapM Rule.ofLine =
      .ok [⟨"Pair", [⟨"Box<Expr>", "left"⟩, ⟨"Value", "type"⟩]⟩, ⟨"Nil", []⟩] := by
    rfl
  have withinLines : ∀ path ∈ ["value::Value"], '\n' ∉ path.toList := by
    simp
  have typeNames : ∀ rule ∈ [(⟨"Pair", [⟨"Box<Expr>", "left"⟩, ⟨"Value", "type"⟩]⟩ : Rule),
      ⟨"Nil", []⟩], IsName rule.typeName := by
    simp only [List.forall_mem_cons]
    exact ⟨by decide, by decide, nofun⟩
  have fieldNames : ∀ rule ∈ [(⟨"Pair", [⟨"Box<Expr>", "left"⟩, ⟨"Value", "type"⟩]⟩ : Rule),
      ⟨"Nil", []⟩], ∀ field ∈ rule.fields, IsName field.name := by
    simp only [List.forall_mem_cons]
    exact ⟨⟨by decide, by decide, nofun⟩, nofun, nofun⟩
  have isName : IsName "Expr" := by decide
  obtain ⟨text, defined, extracted, told⟩ :=
    define_loses_nothing accepted withinLines isName typeNames fieldNames
  refine ⟨accepted, text, defined, extracted, ?_⟩
  rw [told]
  decide

end Reckon.Schema
