import Mathlib.Data.List.Nodup
import Reckon.Proofs.Schema.Extraction

/-!
# Parameters of constructors

A constructor has a parameter for each field, in the order of the fields, and fills every field
from the parameter of its name. A parameter is named like its field, or by the substitute if that
is a keyword. So parameters can clash although the fields do not, which happens where a keyword
stands beside its own substitute and nowhere else.
-/

namespace Reckon.Schema

/-- Items with different labels have different images, unless two of them clash, where items have
the same image if they have the same label or if one of them clashes with the other. -/
theorem nodup_map_iff_of_eq_iff {α β γ : Type} {label : α → β} {image : α → γ}
    {clashes : α → α → Prop} (irreflexive : ∀ item, ¬ clashes item item)
    (eq_iff : ∀ item other, image item = image other ↔
      label item = label other ∨ clashes item other ∨ clashes other item)
    {items : List α} (distinct : (items.map label).Nodup) :
    (items.map image).Nodup ↔ ∀ item ∈ items, ∀ other ∈ items, ¬ clashes item other := by
  rw [List.nodup_map_iff_inj_on distinct.of_map]
  constructor
  · intro injective item member other otherMember clash
    cases injective item member other otherMember ((eq_iff item other).2 (.inr (.inl clash)))
    exact irreflexive item clash
  · intro apart item member other otherMember same
    rcases (eq_iff item other).1 same with sameLabel | clash | clash
    · exact List.inj_on_of_nodup_map distinct member otherMember sameLabel
    · exact absurd clash (apart item member other otherMember)
    · exact absurd clash (apart other otherMember item member)

/-! ## Substitutes -/

/-- Every keyword has one substitute, no two have the same, and no substitute is a keyword. -/
theorem substitutes_apart :
    (∀ entry ∈ substitutes, substitutes.lookup entry.2 = none ∧
      substitutes.lookup entry.1 = some entry.2) ∧
    (substitutes.map Prod.snd).Nodup := by
  constructor <;> decide +kernel

theorem lookup_substitutes_iff {keyword substitute : String} :
    substitutes.lookup keyword = some substitute ↔ (keyword, substitute) ∈ substitutes :=
  ⟨mem_substitutes, fun member => (substitutes_apart.1 _ member).2⟩

theorem lookup_substitute {keyword substitute : String}
    (member : (keyword, substitute) ∈ substitutes) : substitutes.lookup substitute = none :=
  (substitutes_apart.1 _ member).1

theorem keyword_unique {keyword other substitute : String}
    (member : (keyword, substitute) ∈ substitutes)
    (otherMember : (other, substitute) ∈ substitutes) : keyword = other :=
  congrArg Prod.fst (List.inj_on_of_nodup_map substitutes_apart.2 member otherMember rfl)

/-! ## Parameters -/

namespace Field

variable {field other : Field}

theorem parameter_of_substitute {substitute : String}
    (member : (field.name, substitute) ∈ substitutes) : field.parameter = substitute := by
  rw [parameter, lookup_substitutes_iff.2 member, Option.getD_some]

theorem parameter_of_none (none : substitutes.lookup field.name = none) :
    field.parameter = field.name := by
  rw [parameter, none, Option.getD_none]

theorem parameter_eq_of_substitute (member : (field.name, other.name) ∈ substitutes) :
    field.parameter = other.parameter := by
  rw [parameter_of_substitute member, parameter_of_none (lookup_substitute member)]

/-- Two fields have the same parameter if they have the same name, or if one is named by the
substitute for the other. -/
theorem parameter_eq_iff :
    field.parameter = other.parameter ↔
      field.name = other.name ∨ (field.name, other.name) ∈ substitutes ∨
        (other.name, field.name) ∈ substitutes := by
  constructor
  · intro same
    cases found : substitutes.lookup field.name with
    | none =>
      rw [parameter_of_none found] at same
      cases foundOther : substitutes.lookup other.name with
      | none => exact .inl (same.trans (parameter_of_none foundOther))
      | some substitute =>
        have member := lookup_substitutes_iff.1 foundOther
        rw [parameter_of_substitute member] at same
        exact .inr (.inr (same ▸ member))
    | some substitute =>
      have member := lookup_substitutes_iff.1 found
      rw [parameter_of_substitute member] at same
      cases foundOther : substitutes.lookup other.name with
      | none =>
        rw [parameter_of_none foundOther] at same
        exact .inr (.inl (same ▸ member))
      | some otherSubstitute =>
        have otherMember := lookup_substitutes_iff.1 foundOther
        rw [parameter_of_substitute otherMember] at same
        exact .inl (keyword_unique member (same ▸ otherMember))
  · rintro (same | member | member)
    · rw [parameter, parameter, same]
    · exact parameter_eq_of_substitute member
    · exact (parameter_eq_of_substitute member).symm

/-- The parameters for fields of different names are different unless a keyword stands beside its
substitute. -/
theorem nodup_parameters_iff {fields : List Field} (distinct : (fields.map Field.name).Nodup) :
    (fields.map Field.parameter).Nodup ↔
      ∀ field ∈ fields, ∀ other ∈ fields, (field.name, other.name) ∉ substitutes := by
  refine nodup_map_iff_of_eq_iff (fun field isSubstitute => ?_) (fun _ _ => parameter_eq_iff)
    distinct
  have noKeyword := lookup_substitute isSubstitute
  rw [lookup_substitutes_iff.2 isSubstitute] at noKeyword
  cases noKeyword

end Field

/-! ## Constructors -/

namespace RecordCode

def parameterNames (record : RecordCode) : List String :=
  record.parameters.map Binding.name

/-- Whether the initializer at one place of a constructor names the parameter at another. -/
def Supplies (record : RecordCode) (parameter initializer : Nat) : Prop :=
  parameter < record.parameterNames.length ∧
    (record.fillings.map Filling.parameter)[initializer]? = record.parameterNames[parameter]?

instance (record : RecordCode) (parameter initializer : Nat) :
    Decidable (record.Supplies parameter initializer) :=
  inferInstanceAs (Decidable (_ ∧ _))

/-- Where every initializer names the parameter at its own place, no parameters clash if and only
if it names no other. -/
theorem nodup_iff_supplies {record : RecordCode}
    (inOrder : record.fillings.map Filling.parameter = record.parameterNames) :
    record.parameterNames.Nodup ↔
      ∀ initializer < record.fillings.length, ∀ parameter,
        record.Supplies parameter initializer ↔ parameter = initializer := by
  have count : record.fillings.length = record.parameterNames.length := by
    rw [← inOrder, List.length_map]
  simp only [Supplies, inOrder, count]
  constructor
  · intro distinct initializer inside parameter
    constructor
    · rintro ⟨within, same⟩
      rw [List.getElem?_eq_getElem inside, List.getElem?_eq_getElem within] at same
      exact (distinct.getElem_inj_iff.1 (Option.some.inj same)).symm
    · rintro rfl
      exact ⟨inside, rfl⟩
  · intro own
    refine List.nodup_iff_getElem?_ne_getElem?.2 fun parameter initializer before inside same => ?_
    exact before.ne ((own initializer inside parameter).1 ⟨before.trans inside, same.symm⟩)

end RecordCode

theorem NodeModel.parameterNames_recordCode (model : NodeModel) (rule : Rule) :
    (model.recordCode rule).parameterNames = rule.fields.map Field.parameter := by
  simp [recordCode, RecordCode.parameterNames]

/-- The parameters of the constructor for a rule with fields of different names are different,
unless one of the fields is named by a keyword and another one by its substitute. Where the fields
have names without marks, so do the parameters. Every initializer fills the field at its own place,
and it does so from the parameter at that place and no other if and only if the parameters are
different. -/
theorem parameters_distinct_iff {base : String} {uses lines : List String} {rules : List Rule}
    {rule : Rule} (accepted : lines.mapM Rule.ofLine = .ok rules) (member : rule ∈ rules)
    (distinct : (rule.fields.map Field.name).Nodup) :
    let model := NodeModel.mk base uses rules
    let record := model.recordCode rule
    define base uses lines = .ok model.file.toText ∧
      (model.Sound → CodeFile.ofText? model.file.toText = some model.file) ∧
      record ∈ model.file.records ∧
      (record.parameterNames.Nodup ↔
        ∀ field ∈ rule.fields, ∀ other ∈ rule.fields, (field.name, other.name) ∉ substitutes) ∧
      ((∀ field ∈ rule.fields, IsName field.name) →
        record.parameterNames.map unmarked = record.parameterNames) ∧
      record.fillings.map Filling.field = record.fields.map Binding.name ∧
      (record.parameterNames.Nodup ↔
        ∀ initializer < record.fillings.length, ∀ parameter,
          record.Supplies parameter initializer ↔ parameter = initializer) := by
  intro model record
  have parameterNames : record.parameterNames = rule.fields.map Field.parameter :=
    model.parameterNames_recordCode rule
  have inOrder : record.fillings.map Filling.parameter = record.parameterNames := by
    rw [parameterNames]
    exact List.map_map
  rw [model.toText_file]
  refine ⟨define_of_accepted accepted, NodeModel.ofText?_toText, List.mem_map_of_mem member, ?_,
    fun isName => ?_, ?_, RecordCode.nodup_iff_supplies inOrder⟩
  · rw [parameterNames, Field.nodup_parameters_iff distinct]
  · rw [parameterNames, List.map_map]
    exact List.map_congr_left fun field inRule =>
      (Field.isName_parameter (isName field inRule)).unmarked_eq
  · simp [record, NodeModel.recordCode]

/-- A substitute may be the name of a field where the keyword is none. -/
theorem parameters_distinct_cast :
    let rule : Rule := ⟨"Cast", [⟨"Box<Stmt>", "inner"⟩, ⟨"String", "type"⟩, ⟨"Value", "input"⟩]⟩
    let lines := ["Cast : Box<Stmt> inner, String type, Value input"]
    lines.mapM Rule.ofLine = .ok [rule] ∧ rule ∈ [rule] ∧ (rule.fields.map Field.name).Nodup ∧
      ((NodeModel.mk "Stmt" [] [rule]).recordCode rule).parameterNames.Nodup := by
  intro rule lines
  have accepted : lines.mapM Rule.ofLine = .ok [rule] := by rfl
  have member : rule ∈ [rule] := List.mem_singleton_self rule
  have distinct : (rule.fields.map Field.name).Nodup := by decide
  obtain ⟨-, -, -, differ, -⟩ := parameters_distinct_iff accepted member distinct
  exact ⟨accepted, member, distinct, differ.2 (by decide)⟩

/-- A constructor with two parameters of the same name, for fields that are named by a keyword and
by its substitute. The initializer of either field names both of them. -/
theorem not_distinct_parameters :
    ∃ rule : Rule, Rule.ofLine "Cast : String type, String ty" = .ok rule ∧
      (rule.fields.map Field.name).Nodup ∧
      ∃ text file record, define "Expr" [] ["Cast : String type, String ty"] = .ok text ∧
        CodeFile.ofText? text = some file ∧ file.records = [record] ∧
        record.parameterNames = ["ty", "ty"] ∧ ¬ record.parameterNames.Nodup ∧
        ∀ initializer < 2, ∀ parameter < 2, record.Supplies parameter initializer := by
  have accepted : ["Cast : String type, String ty"].mapM Rule.ofLine =
      .ok [⟨"Cast", [⟨"String", "type"⟩, ⟨"String", "ty"⟩]⟩] := by rfl
  have sound : (NodeModel.mk "Expr" [] [⟨"Cast", [⟨"String", "type"⟩, ⟨"String", "ty"⟩]⟩]).Sound :=
    NodeModel.sound_of_accepted accepted nofun (by decide) (by decide) (by decide)
  exact ⟨_, by rfl, by decide, _, _, _, define_of_accepted accepted,
    NodeModel.ofText?_toText sound, rfl, by decide, by decide, by decide⟩

end Reckon.Schema
