import Reckon.Proofs.Schema.Extraction

/-!
# Keywords among the names of generated code

A word that the generated language keeps for itself is no name there unless it is marked as raw.
The names that a grammar gives to fields come out marked or replaced as far as the table of
substitutes knows them, and the name of a node is put in lower case and nothing else. This module
finds out for which grammars no keyword is left among the names of the code.
-/

namespace Reckon.Schema

/-- The keywords of the generated language, and behind them the words that it reserves for
keywords to come. -/
def keywords : List String :=
  ["as", "async", "await", "break", "const", "continue", "crate", "dyn", "else", "enum", "extern",
   "false", "fn", "for", "if", "impl", "in", "let", "loop", "match", "mod", "move", "mut", "pub",
   "ref", "return", "self", "Self", "static", "struct", "super", "trait", "true", "type", "unsafe",
   "use", "where", "while",
   "abstract", "become", "box", "do", "final", "macro", "override", "priv", "try", "typeof",
   "unsized", "virtual", "yield"]

/-- The keywords that fields may be named by although they have no substitute. -/
def bareKeywords : List String :=
  keywords.filter fun keyword =>
    (substitutes.lookup keyword).isNone && !reservedNames.contains keyword

example : bareKeywords =
    ["await", "break", "continue", "else", "false", "for", "if", "return", "true", "unsafe",
     "while", "abstract", "become", "do", "final", "macro", "override", "priv", "try", "typeof",
     "unsized", "virtual", "yield"] := by
  decide

/-! ## Fields -/

/-- The mark of a raw name begins no keyword, and no substitute is one. -/
theorem keywords_unmarked :
    (keywords.all fun keyword => keyword.toList.take 2 != ['r', '#']) = true ∧
      (substitutes.all fun (_, substitute) => !keywords.contains substitute) = true := by
  constructor <;> decide

namespace Field

variable {field : Field}

/-- A field comes out as a keyword if it is named by one that has no substitute. -/
theorem identifier_mem_keywords_iff :
    field.identifier ∈ keywords ↔
      field.name ∈ keywords ∧ substitutes.lookup field.name = none := by
  rw [identifier]
  cases found : substitutes.lookup field.name with
  | none => simp
  | some substitute =>
    have marked : "r#" ++ field.name ∉ keywords := fun member => by
      have unmarked := List.all_eq_true.1 keywords_unmarked.1 _ member
      exact marked_ne (bne_iff_ne.1 unmarked) rfl
    simp [marked]

theorem parameter_mem_keywords_iff :
    field.parameter ∈ keywords ↔
      field.name ∈ keywords ∧ substitutes.lookup field.name = none := by
  rw [parameter]
  cases found : substitutes.lookup field.name with
  | none => simp
  | some substitute =>
    have apart := List.all_eq_true.1 keywords_unmarked.2 _ (mem_substitutes found)
    simpa using apart

theorem Writable.mem_bareKeywords_iff (writable : field.Writable) :
    field.name ∈ bareKeywords ↔
      field.name ∈ keywords ∧ substitutes.lookup field.name = none := by
  simp [bareKeywords, writable.allowed]

end Field

/-! ## Files -/

/-- The names that the code for a record type gives to its fields, to the functions that read
them, to the parameters of its constructor, and to a node that is converted, at every place. -/
def RecordCode.names (record : RecordCode) : List String :=
  record.fields.map Binding.name ++ record.fillings.map Filling.field ++
    record.accessors.flatMap (fun accessor => [accessor.name, accessor.field]) ++
    record.parameters.map Binding.name ++ record.fillings.map Filling.parameter ++
    [record.inclusion.parameter.name, record.inclusion.value]

/-- The names of fields, of the functions that read them and of parameters, at every place of a
file. -/
def CodeFile.names (file : CodeFile) : List String :=
  file.methods.map Method.parameter ++
    file.arms.flatMap (fun arm => [arm.name, arm.receiver]) ++
    file.records.flatMap RecordCode.names

namespace NodeModel

variable (model : NodeModel)

/-- Something holds of all names in the code for a kind of node if it holds of the name of a node
and of what the fields come out as. -/
theorem forall_names_recordCode {rule : Rule} {holds : String → Prop} :
    (∀ name ∈ (model.recordCode rule).names, holds name) ↔
      holds model.parameter ∧
        ∀ field ∈ rule.fields, holds field.identifier ∧ holds field.parameter := by
  simp only [RecordCode.names, recordCode, List.map_map, List.flatMap_map, List.forall_mem_append,
    List.forall_mem_map, List.forall_mem_flatMap, List.forall_mem_cons, List.not_mem_nil,
    false_implies, implies_true, and_true, and_self, Function.comp_apply]
  constructor
  · rintro ⟨⟨⟨fields, parameters⟩, -⟩, node⟩
    exact ⟨node, fun field member => ⟨fields field member, parameters field member⟩⟩
  · rintro ⟨node, each⟩
    have fields (field : Field) (member : field ∈ rule.fields) := (each field member).1
    have parameters (field : Field) (member : field ∈ rule.fields) := (each field member).2
    exact ⟨⟨⟨fields, parameters⟩, parameters⟩, node⟩

/-- The name of a node is used as soon as there is a kind of node. -/
theorem forall_names_file {holds : String → Prop} :
    (∀ name ∈ model.file.names, holds name) ↔
      (model.rules ≠ [] → holds model.parameter) ∧
        ∀ rule ∈ model.rules, ∀ field ∈ rule.fields,
          holds field.identifier ∧ holds field.parameter := by
  simp only [CodeFile.names, file, List.map_map, List.flatMap_map, List.forall_mem_append,
    List.forall_mem_map, List.forall_mem_flatMap, List.forall_mem_cons, List.not_mem_nil,
    false_implies, implies_true, and_true, and_self, Function.comp_apply, forall_names_recordCode]
  constructor
  · rintro ⟨methods, records⟩
    refine ⟨fun nonempty => ?_, fun rule member => (records rule member).2⟩
    obtain ⟨rule, member⟩ := List.exists_mem_of_ne_nil _ nonempty
    exact methods rule member
  · rintro ⟨node, fields⟩
    have named (rule : Rule) (member : rule ∈ model.rules) : holds model.parameter :=
      node (List.ne_nil_of_mem member)
    exact ⟨named, fun rule member => ⟨named rule member, fields rule member⟩⟩

end NodeModel

/-- A grammar is turned into code without a keyword for a name exactly if the name of its sum type
in lower case is none, unless there are no kinds of nodes, and if its fields are named by no
keyword that has no substitute. The names are those of the fields and their accessors, of the
parameters of constructors, and of nodes that are passed to visitors, matched and converted. They
can all be read in the text if the grammar has names and types that can be in it. -/
theorem keywordFree_iff {base : String} {uses lines : List String} {rules : List Rule}
    (accepted : lines.mapM Rule.ofLine = .ok rules) :
    let model := NodeModel.mk base uses rules
    define base uses lines = .ok model.file.toText ∧
      (model.Sound → CodeFile.ofText? model.file.toText = some model.file) ∧
      ((∀ name ∈ model.file.names, name ∉ keywords) ↔
        (rules ≠ [] → snakeCase base ∉ keywords) ∧
          ∀ rule ∈ rules, ∀ field ∈ rule.fields, field.name ∉ bareKeywords) := by
  intro model
  have field (rule : Rule) (member : rule ∈ rules) (field : Field) (inRule : field ∈ rule.fields) :
      field.identifier ∉ keywords ∧ field.parameter ∉ keywords ↔ field.name ∉ bareKeywords := by
    have writable := (Rule.writable_of_accepted accepted member).fields field inRule
    rw [Field.identifier_mem_keywords_iff, Field.parameter_mem_keywords_iff, and_self,
      writable.mem_bareKeywords_iff]
  rw [model.toText_file, model.forall_names_file]
  refine ⟨define_of_accepted accepted, NodeModel.ofText?_toText, and_congr_right fun _ => ?_⟩
  exact forall₄_congr field

/-- A keyword with a substitute is no keyword in the code, and neither is a word that begins with
one. -/
theorem keywordFree_cast :
    let lines := ["Cast : Box<Stmt> inner, String type", "If : Expr iffy"]
    let rules : List Rule :=
      [⟨"Cast", [⟨"Box<Stmt>", "inner"⟩, ⟨"String", "type"⟩]⟩, ⟨"If", [⟨"Expr", "iffy"⟩]⟩]
    lines.mapM Rule.ofLine = .ok rules ∧
      ∀ name ∈ (NodeModel.mk "Stmt" [] rules).file.names, name ∉ keywords := by
  intro lines rules
  have accepted : lines.mapM Rule.ofLine = .ok rules := by rfl
  obtain ⟨-, -, keywordFree⟩ := keywordFree_iff accepted
  refine ⟨accepted, keywordFree.2 ⟨fun _ => ?_, ?_⟩⟩
  · decide
  · decide

/-- A branch with a field for its condition that is named by a keyword: the keyword is the name of
the field, of its accessor and of the parameter for it, and nothing marks it as raw. -/
theorem not_keywordFree_branch :
    IsName "Expr" ∧ IsName "if" ∧ "if" ∈ keywords ∧
      ∃ text file, define "Expr" [] ["Branch : Value if"] = .ok text ∧
        CodeFile.ofText? text = some file ∧ "if" ∈ file.names ∧
        (file.records.map fun record => (record.fields.map Binding.name,
          record.accessors.map Accessor.name, record.parameters.map Binding.name)) =
            [(["if"], ["if"], ["if"])] := by
  have accepted : ["Branch : Value if"].mapM Rule.ofLine =
      .ok [⟨"Branch", [⟨"Value", "if"⟩]⟩] := by rfl
  have sound : (NodeModel.mk "Expr" [] [⟨"Branch", [⟨"Value", "if"⟩]⟩]).Sound :=
    NodeModel.sound_of_accepted accepted nofun (by decide) (by decide) (by decide)
  exact ⟨by decide, by decide, by decide, _, _, define_of_accepted accepted,
    NodeModel.ofText?_toText sound, by decide, by decide⟩

end Reckon.Schema
