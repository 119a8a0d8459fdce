import Reckon.Proofs.Schema.Constructor

/-!
# Methods of generated code

The functions of a record are its constructor, the functions that read its fields, and the one
that accepts a visitor. A visitor has one method for each kind of node, which is named by the
name of the kind in lower case. This module finds out for which grammars no two functions of a
record and no two methods of a visitor have the same name.
-/

namespace Reckon.Schema

/-! ## Fields -/

theorem substitutes_unmarked :
    (substitutes.all fun listed => listed.1.toList.take 2 != ['r', '#']) = true := by
  decide

theorem lookup_marked (name : String) : substitutes.lookup ("r#" ++ name) = none := by
  by_contra found
  obtain ⟨substitute, found⟩ := Option.ne_none_iff_exists'.1 found
  have unmarked := List.all_eq_true.1 substitutes_unmarked _ (mem_substitutes found)
  exact marked_ne (bne_iff_ne.1 unmarked) rfl

namespace Field

variable {field other : Field}

/-- A field is named by a keyword that has a substitute. -/
def IsKeyword (field : Field) : Prop :=
  (substitutes.lookup field.name).isSome

instance (field : Field) : Decidable field.IsKeyword :=
  inferInstanceAs (Decidable (_ = true))

theorem identifier_of_isKeyword (keyword : field.IsKeyword) :
    field.identifier = "r#" ++ field.name := by
  obtain ⟨substitute, found⟩ := Option.isSome_iff_exists.1 keyword
  rw [identifier, found]

theorem identifier_of_not_isKeyword (plain : ¬ field.IsKeyword) :
    field.identifier = field.name := by
  rw [identifier, Option.not_isSome_iff_eq_none.1 plain]

/-- A keyword comes out as that keyword when it is marked by itself. -/
theorem identifier_eq_of_marked (keyword : field.IsKeyword)
    (marked : other.name = "r#" ++ field.name) : field.identifier = other.identifier := by
  have plain : ¬ other.IsKeyword := by
    rw [IsKeyword, marked, lookup_marked]
    exact Bool.false_ne_true
  rw [identifier_of_isKeyword keyword, identifier_of_not_isKeyword plain, marked]

/-- Two fields come out as the same if they have the same name, or if one is named by the other
as it comes out. -/
theorem identifier_eq_iff :
    field.identifier = other.identifier ↔
      field.name = other.name ∨ field.IsKeyword ∧ other.name = "r#" ++ field.name ∨
        other.IsKeyword ∧ field.name = "r#" ++ other.name := by
  constructor
  · intro same
    by_cases keyword : field.IsKeyword <;> by_cases otherKeyword : other.IsKeyword
    · rw [identifier_of_isKeyword keyword, identifier_of_isKeyword otherKeyword] at same
      exact .inl ((String.append_right_inj "r#").1 same)
    · rw [identifier_of_isKeyword keyword, identifier_of_not_isKeyword otherKeyword] at same
      exact .inr (.inl ⟨keyword, same.symm⟩)
    · rw [identifier_of_not_isKeyword keyword, identifier_of_isKeyword otherKeyword] at same
      exact .inr (.inr ⟨otherKeyword, same⟩)
    · rw [identifier_of_not_isKeyword keyword, identifier_of_not_isKeyword otherKeyword] at same
      exact .inl same
  · rintro (same | ⟨keyword, marked⟩ | ⟨keyword, marked⟩)
    · rw [identifier, identifier, same]
    · exact identifier_eq_of_marked keyword marked
    · exact (identifier_eq_of_marked keyword marked).symm

theorem identifier_eq_word_iff {word : String} (plain : substitutes.lookup word = none)
    (unmarked : word.toList.take 2 ≠ ['r', '#']) :
    field.identifier = word ↔ field.name = word := by
  by_cases keyword : field.IsKeyword
  · rw [identifier_of_isKeyword keyword]
    constructor
    · intro marked
      exact absurd marked (marked_ne unmarked)
    · rintro rfl
      rw [IsKeyword, plain] at keyword
      cases keyword
  · rw [identifier_of_not_isKeyword keyword]

/-- Fields of different names come out as different, unless one is named by a keyword and another
one by that keyword as marked. -/
theorem nodup_identifiers_iff {fields : List Field} (distinct : (fields.map Field.name).Nodup) :
    (fields.map Field.identifier).Nodup ↔
      ∀ field ∈ fields, ∀ other ∈ fields,
        ¬ (field.IsKeyword ∧ other.name = "r#" ++ field.name) := by
  refine nodup_map_iff_of_eq_iff (fun field clash => ?_) (fun _ _ => identifier_eq_iff) distinct
  obtain ⟨keyword, marked⟩ := clash
  rw [IsKeyword, marked, lookup_marked] at keyword
  cases keyword

end Field

/-! ## Functions of a record -/

/-- The name of the function that a block declares: what can be in a name behind the words that
functions begin with. -/
def Code.functionName? : Code → Option String
  | .line _ => none
  | .block header _ =>
      (header.toList.dropPrefix? "pub fn ".toList).map fun rest =>
        String.ofList (rest.takeWhile Gap.name.accepts)

def Code.functionNames : Code → List String
  | .line _ => []
  | .block _ body => body.filterMap functionName?

theorem Code.functionName?_block {name : String} {stop : Char} {header : String}
    (holds : Gap.name.Holds name) (stops : Gap.name.accepts stop = false)
    (begins : "pub fn ".toList ++ (name.toList ++ [stop]) <+: header.toList) (body : List Code) :
    functionName? (.block header body) = some name := by
  obtain ⟨rest, text⟩ := begins
  have dropped : header.toList.dropPrefix? "pub fn ".toList =
      some (name.toList ++ stop :: rest) := by
    rw [← text, List.append_assoc, List.append_assoc]
    exact List.dropPrefix?_append_of_beq _ rfl
  have taken : (name.toList ++ stop :: rest).takeWhile Gap.name.accepts = name.toList :=
    (Text.span_exact _ holds (by simpa using stops)).1
  rw [functionName?, dropped, Option.map_some, taken, String.ofList_toList]

namespace RecordCode

/-- The names of a record's functions: of its constructor, of those that read its fields, and of
the one that accepts a visitor. -/
def functionNames (record : RecordCode) : List String :=
  "new" :: (record.accessors.map Accessor.name ++ ["accept"])

/-- The functions of a record are found under these names in its code. -/
theorem functionNames_functionsCode {record : RecordCode} (fits : record.Fits) :
    record.functionsCode.functionNames = record.functionNames := by
  have parenthesis : Gap.name.accepts '(' = false := by decide
  have bracket : Gap.name.accepts '<' = false := by decide
  have isNew : IsName "new" := by decide
  have isAccept : IsName "accept" := by decide
  have constructorHeader (list : String) : (constructorForm.text list).toList =
      "pub fn ".toList ++ ("new".toList ++ ['(']) ++ (list ++ ") -> Self \x7b").toList :=
    String.toList_append
  have accessorHeader (binding : Binding) : (accessorForm.text binding).toList =
      "pub fn ".toList ++ (binding.name.toList ++ ['(']) ++
        ("&self) -> &" ++ binding.type ++ " \x7b").toList := by
    rw [accessorForm_text]
    simp [toString]
  have constructor : record.constructorCode.functionName? = some "new" :=
    Code.functionName?_block isNew.holds parenthesis ⟨_, (constructorHeader _).symm⟩ _
  have accept : record.acceptCode.functionName? = some "accept" :=
    Code.functionName?_block isAccept.holds bracket ⟨_, rfl⟩ _
  have reads (accessor : Accessor) (member : accessor ∈ record.accessors) :
      accessor.code.functionName? = some accessor.name :=
    Code.functionName?_block (fits.accessors accessor member).1.1 parenthesis
      ⟨_, (accessorHeader _).symm⟩ _
  have accessors : (record.accessors.flatMap fun accessor => [blankLine, accessor.code]).filterMap
      Code.functionName? = record.accessors.map Accessor.name := by
    rw [List.filterMap_flatMap, List.map_eq_flatMap]
    refine List.flatMap_congr fun accessor member => ?_
    rw [List.filterMap_cons_none rfl, List.filterMap_cons_some (reads accessor member),
      List.filterMap_nil]
  rw [functionsCode, Code.functionNames, List.cons_append, List.filterMap_cons_some constructor,
    List.filterMap_append, accessors, List.filterMap_cons_none rfl,
    List.filterMap_cons_some accept, List.filterMap_nil, functionNames]

end RecordCode

def CodeFile.methodNames (file : CodeFile) : List String :=
  file.methods.map Method.name

namespace NodeModel

variable {model : NodeModel} {rule other : Rule}

/-- Some names differ from each other and from those of the constructor and of the function that
accepts a visitor. -/
theorem nodup_functions_iff {names : List String} :
    ("new" :: (names ++ ["accept"])).Nodup ↔
      (∀ name ∈ names, name ≠ "new" ∧ name ≠ "accept") ∧ names.Nodup := by
  rw [List.nodup_cons, List.mem_append, not_or, List.nodup_append_comm, List.singleton_append,
    List.nodup_cons, and_iff_left (by decide : "new" ∉ ["accept"]), ← and_assoc, forall₂_and,
    List.forall_mem_ne', List.forall_mem_ne']

theorem functionNames_recordCode :
    (model.recordCode rule).functionNames =
      "new" :: (rule.fields.map Field.identifier ++ ["accept"]) := by
  simp [recordCode, RecordCode.functionNames]

/-- The functions of a record differ in their names, unless a field is named like the constructor
or like the function that accepts a visitor, or the functions that read two fields clash. -/
theorem nodup_functionNames_iff (distinct : (rule.fields.map Field.name).Nodup) :
    (model.recordCode rule).functionNames.Nodup ↔
      (∀ field ∈ rule.fields, field.name ≠ "new" ∧ field.name ≠ "accept") ∧
        ∀ field ∈ rule.fields, ∀ other ∈ rule.fields,
          ¬ (field.IsKeyword ∧ other.name = "r#" ++ field.name) := by
  have new (field : Field) : field.identifier = "new" ↔ field.name = "new" :=
    Field.identifier_eq_word_iff (by decide) (by decide)
  have accept (field : Field) : field.identifier = "accept" ↔ field.name = "accept" :=
    Field.identifier_eq_word_iff (by decide) (by decide)
  rw [functionNames_recordCode, nodup_functions_iff, Field.nodup_identifiers_iff distinct]
  simp only [List.forall_mem_map, ne_eq, new, accept]

/-- Where fields have names without marks, the functions differ also without the marks that they
are given. -/
theorem nodup_unmarked_functionNames_iff (distinct : (rule.fields.map Field.name).Nodup)
    (isName : ∀ field ∈ rule.fields, IsName field.name) :
    ((model.recordCode rule).functionNames.map unmarked).Nodup ↔
      ∀ field ∈ rule.fields, field.name ≠ "new" ∧ field.name ≠ "accept" := by
  have isNew : IsName "new" := by decide
  have isAccept : IsName "accept" := by decide
  have identifiers : rule.fields.map (unmarked ∘ Field.identifier) =
      rule.fields.map Field.name :=
    List.map_congr_left fun field member => Field.unmarked_identifier (isName field member)
  have names : (model.recordCode rule).functionNames.map unmarked =
      "new" :: (rule.fields.map Field.name ++ ["accept"]) := by
    simp [functionNames_recordCode, isNew.unmarked_eq, isAccept.unmarked_eq, ← identifiers]
  rw [names, nodup_functions_iff, and_iff_left distinct]
  simp only [List.forall_mem_map]

theorem visitMethod_eq_iff :
    model.visitMethod rule = model.visitMethod other ↔
      snakeCase rule.typeName = snakeCase other.typeName := by
  have spelled (rule : Rule) : (model.visitMethod rule).toList =
      "visit_".toList ++ (snakeCase rule.typeName).toList ++
        ("_" ++ snakeCase model.base).toList := by
    simp [visitMethod, toString]
  rw [← String.toList_inj, spelled, spelled, List.append_left_inj, List.append_right_inj,
    String.toList_inj]

theorem recordName_eq_iff :
    model.recordName rule = model.recordName other ↔ rule.typeName = other.typeName :=
  String.append_left_inj model.base

/-- The methods of a visitor differ in their names if the names of kinds of nodes do so in lower
case. -/
theorem nodup_methodNames_iff (distinct : (model.rules.map Rule.typeName).Nodup) :
    model.file.methodNames.Nodup ↔
      ∀ rule ∈ model.rules, ∀ other ∈ model.rules,
        snakeCase rule.typeName = snakeCase other.typeName → rule = other := by
  rw [CodeFile.methodNames, file, List.map_map, List.nodup_map_iff_inj_on distinct.of_map]
  simp only [Function.comp_apply, visitMethod_eq_iff]

/-- The methods that records accept visitors by are those for the records themselves, and no
others, if and only if the methods differ in their names. -/
theorem visits_own_iff (distinct : (model.rules.map Rule.typeName).Nodup) :
    model.file.methodNames.Nodup ↔
      ∀ record ∈ model.file.records, ∀ method ∈ model.file.methods,
        method.name = record.visits ↔ method.record = record.name := by
  rw [nodup_methodNames_iff distinct]
  simp only [file, recordCode, List.forall_mem_map, visitMethod_eq_iff, recordName_eq_iff]
  constructor
  · intro apart rule member other otherMember
    refine ⟨fun same => ?_, fun same => by rw [same]⟩
    rw [apart other otherMember rule member same]
  · intro own rule member other otherMember same
    have sameType := (own other otherMember rule member).1 same
    exact List.inj_on_of_nodup_map distinct member otherMember sameType

end NodeModel

/-- Let the kinds of nodes of a grammar have different names, and the fields of each kind too. The
functions of a record have different names then, unless a field is named like the constructor or
like the function that accepts visitors, or two fields are named by a keyword and by that keyword
marked as raw. The methods of a visitor have different names if those of the kinds of nodes differ
in lower case, as they do in camel case. It is the same to say that every record accepts a visitor
by the method for itself and no other. -/
theorem methods_distinct_iff {base : String} {uses lines : List String} {rules : List Rule}
    (accepted : lines.mapM Rule.ofLine = .ok rules)
    (typesDistinct : (rules.map Rule.typeName).Nodup)
    (fieldsDistinct : ∀ rule ∈ rules, (rule.fields.map Field.name).Nodup) :
    let model := NodeModel.mk base uses rules
    define base uses lines = .ok model.file.toText ∧
      (model.Sound → CodeFile.ofText? model.file.toText = some model.file ∧
        ∀ record ∈ model.file.records,
          record.functionsCode.functionNames = record.functionNames) ∧
      (∀ rule ∈ rules, (model.recordCode rule).functionNames.Nodup ↔
        (∀ field ∈ rule.fields, field.name ≠ "new" ∧ field.name ≠ "accept") ∧
          ∀ field ∈ rule.fields, ∀ other ∈ rule.fields,
            ¬ (field.IsKeyword ∧ other.name = "r#" ++ field.name)) ∧
      (∀ rule ∈ rules, (∀ field ∈ rule.fields, IsName field.name) →
        (((model.recordCode rule).functionNames.map unmarked).Nodup ↔
          ∀ field ∈ rule.fields, field.name ≠ "new" ∧ field.name ≠ "accept")) ∧
      (model.file.methodNames.Nodup ↔
        ∀ rule ∈ rules, ∀ other ∈ rules,
          snakeCase rule.typeName = snakeCase other.typeName → rule = other) ∧
      ((∀ rule ∈ rules, IsCamelCase rule.typeName) → model.file.methodNames.Nodup) ∧
      (model.file.methodNames.Nodup ↔
        ∀ record ∈ model.file.records, ∀ method ∈ model.file.methods,
          method.name = record.visits ↔ method.record = record.name) := by
  intro model
  rw [model.toText_file]
  refine ⟨define_of_accepted accepted, fun sound => ⟨NodeModel.ofText?_toText sound, ?_⟩,
    fun rule member => NodeModel.nodup_functionNames_iff (fieldsDistinct rule member),
    fun rule member => NodeModel.nodup_unmarked_functionNames_iff (fieldsDistinct rule member),
    NodeModel.nodup_methodNames_iff typesDistinct, fun camelCase => ?_,
    NodeModel.visits_own_iff typesDistinct⟩
  · exact fun record member =>
      RecordCode.functionNames_functionsCode ((NodeModel.file_fits sound).records record member)
  · refine (NodeModel.nodup_methodNames_iff typesDistinct).2 fun rule member other otherMember => ?_
    intro same
    have sameType := (camelCase rule member).eq_of_snakeCase (camelCase other otherMember) same
    exact List.inj_on_of_nodup_map typesDistinct member otherMember sameType

/-- Nothing clashes among kinds of nodes in camel case with a keyword for the name of a field. -/
theorem methods_distinct_pair :
    let rules : List Rule :=
      [⟨"LogicalOr", [⟨"Box<Expr>", "left"⟩, ⟨"Token", "type"⟩]⟩, ⟨"Nil", []⟩]
    let model := NodeModel.mk "Expr" [] rules
    ["LogicalOr : Box<Expr> left, Token type", "Nil :"].mapM Rule.ofLine = .ok rules ∧
      (rules.map Rule.typeName).Nodup ∧ (∀ rule ∈ rules, (rule.fields.map Field.name).Nodup) ∧
      (∀ rule ∈ rules, (model.recordCode rule).functionNames.Nodup) ∧
      model.file.methodNames.Nodup := by
  intro rules model
  have accepted : ["LogicalOr : Box<Expr> left, Token type", "Nil :"].mapM Rule.ofLine =
      .ok rules := by rfl
  have typesDistinct : (rules.map Rule.typeName).Nodup := by decide
  have fieldsDistinct : ∀ rule ∈ rules, (rule.fields.map Field.name).Nodup := by decide
  obtain ⟨-, -, functions, -, -, methods, -⟩ :=
    methods_distinct_iff accepted typesDistinct fieldsDistinct
  have apart : ∀ rule ∈ rules,
      (∀ field ∈ rule.fields, field.name ≠ "new" ∧ field.name ≠ "accept") ∧
        ∀ field ∈ rule.fields, ∀ other ∈ rule.fields,
          ¬ (field.IsKeyword ∧ other.name = "r#" ++ field.name) := by
    decide
  have camelCase : ∀ rule ∈ rules, IsCamelCase rule.typeName := by
    decide +kernel
  exact ⟨accepted, typesDistinct, fieldsDistinct,
    fun rule member => (functions rule member).2 (apart rule member), methods camelCase⟩

/-- Two kinds of nodes whose names differ only in a capital, one of which has a field that is named
like the constructor. Its record has two functions of that name, and the visitor has two methods
of the same name, so that the record accepts a visitor by a method for the other kind as well. -/
theorem not_distinct_methods :
    ∃ rules text file record, ["Node : Token new", "node :"].mapM Rule.ofLine = .ok rules ∧
      (rules.map Rule.typeName).Nodup ∧ (∀ rule ∈ rules, (rule.fields.map Field.name).Nodup) ∧
      define "Expr" [] ["Node : Token new", "node :"] = .ok text ∧
      CodeFile.ofText? text = some file ∧ record ∈ file.records ∧
      record.functionsCode.functionNames = ["new", "new", "accept"] ∧
      ¬ record.functionNames.Nodup ∧
      record.name = "NodeExpr" ∧ record.visits = "visit_node_expr" ∧
      file.methods = [⟨"visit_node_expr", "expr", "NodeExpr"⟩,
        ⟨"visit_node_expr", "expr", "nodeExpr"⟩] ∧
      ¬ file.methodNames.Nodup := by
  have accepted : ["Node : Token new", "node :"].mapM Rule.ofLine =
      .ok [⟨"Node", [⟨"Token", "new"⟩]⟩, ⟨"node", []⟩] := by rfl
  have sound : (NodeModel.mk "Expr" [] [⟨"Node", [⟨"Token", "new"⟩]⟩, ⟨"node", []⟩]).Sound :=
    NodeModel.sound_of_accepted accepted nofun (by decide) (by decide) (by decide)
  exact ⟨_, _, _, _, accepted, by decide, by decide, define_of_accepted accepted,
    NodeModel.ofText?_toText sound, List.mem_cons_self, by decide, by decide, rfl, by decide,
    by decide, by decide⟩

end Reckon.Schema
