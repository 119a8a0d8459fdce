import Reckon.Proofs.Schema.CodeFile

/-!
# Reading generated code

A file of generated code is read by its blocks: each has a place and a header of its form, and
in it the lines and blocks that belong there. Whatever a file says is read back from its text.
-/

namespace Reckon.Schema

def Code.isBlock : Code → Bool
  | .line _ => false
  | .block .. => true

/-! ## Reading -/

/-- Read how a field is filled. A parameter alone fills the field with its name. -/
def Filling.ofText (text : String) : Filling :=
  (fillingForm.read? text).getD ⟨text, text⟩

def readFillings? (line : String) : Option (List Filling) :=
  match filledForm.read? line with
  | some list => some ((parts list).map Filling.ofText)
  | none => (emptyForm.read? line).map fun _ => []

def readConstructor? : Code → Option (List Binding × List Filling)
  | .block header [.line line] => do
      let parameters ← (parts (← constructorForm.read? header)).mapM parameterForm.read?
      let fillings ← readFillings? line
      some (parameters, fillings)
  | _ => none

def Accessor.ofCode? : Code → Option Accessor
  | .block header [.line line] => do
      let binding ← accessorForm.read? header
      let field ← readForm.read? line
      some ⟨binding.name, binding.type, field⟩
  | _ => none

/-- Read which method of the visitor is called. -/
def readAccept? : Code → Option String
  | .block header [.line line] => do
      acceptForm.read? header
      visitForm.read? line
  | _ => none

def Inclusion.ofCode? : Code → Option Inclusion
  | .block header [.block conversion [.line line]] => do
      let (record, base) ← inclusionForm.read? header
      let parameter ← conversionForm.read? conversion
      let (made, variant, value) ← makeForm.read? line
      some ⟨record, base, parameter, made, variant, value⟩
  | _ => none

/-- Read the three blocks for a record type. The first block among its functions is the
constructor and the last one accepts visitors; those between them read the fields. -/
def RecordCode.ofCode? : (record functions inclusion : Code) → Option RecordCode
  | .block record fields, .block owner functions, inclusion => do
      let name ← structForm.read? record
      let fields ← fields.mapM fieldForm.lineOf?
      let owner ← implForm.read? owner
      match functions.filter Code.isBlock with
      | [] => none
      | constructor :: functions =>
          let (parameters, fillings) ← readConstructor? constructor
          let accessors ← functions.dropLast.mapM Accessor.ofCode?
          let visits ← readAccept? (← functions.getLast?)
          let inclusion ← Inclusion.ofCode? inclusion
          some ⟨name, fields, owner, parameters, fillings, accessors, visits, inclusion⟩
  | _, _, _ => none

/-- Read the blocks for record types, three for each. -/
def readRecords? : List Code → Option (List RecordCode)
  | [] => some []
  | record :: functions :: inclusion :: more => do
      let record ← RecordCode.ofCode? record functions inclusion
      let records ← readRecords? more
      some (record :: records)
  | _ => none

def readDispatch? : Code → Option (String × List Arm)
  | .block header [.block accept [.block dispatch arms]] => do
      let owner ← implForm.read? header
      acceptForm.read? accept
      matchForm.read? dispatch
      let arms ← arms.mapM armForm.lineOf?
      some (owner, arms)
  | _ => none

/-- Read a file by its blocks; the only lines of its own that tell anything are uses. -/
def CodeFile.ofCode? (code : List Code) : Option CodeFile :=
  match code.filter Code.isBlock with
  | .block visitor methods :: .block sum variants :: dispatch :: records => do
      visitorForm.read? visitor
      let methods ← methods.mapM methodForm.lineOf?
      let base ← sumForm.read? sum
      let variants ← variants.mapM variantForm.lineOf?
      let (owner, arms) ← readDispatch? dispatch
      let records ← readRecords? records
      some ⟨code.filterMap useForm.lineOf?, methods, base, variants, owner, arms, records⟩
  | _ => none

/-! ## What can be written -/

/-- A filling can be written if its names can be, and if there is a parameter. -/
def Filling.Fits (filling : Filling) : Prop :=
  fillingForm.Fits filling ∧ filling.parameter ≠ ""

def Accessor.Fits (accessor : Accessor) : Prop :=
  accessorForm.Fits ⟨accessor.name, accessor.type⟩ ∧ readForm.Fits accessor.field

def Inclusion.Fits (inclusion : Inclusion) : Prop :=
  inclusionForm.Fits (inclusion.record, inclusion.base) ∧
    conversionForm.Fits inclusion.parameter ∧
    makeForm.Fits (inclusion.made, inclusion.variant, inclusion.value)

/-- The code for a record type can be written if each of its lines can be. -/
structure RecordCode.Fits (record : RecordCode) : Prop where
  name : structForm.Fits record.name
  fields : ∀ field ∈ record.fields, fieldForm.Fits field
  owner : implForm.Fits record.owner
  parameters : ∀ parameter ∈ record.parameters, parameterForm.Fits parameter
  fillings : ∀ filling ∈ record.fillings, filling.Fits
  accessors : ∀ accessor ∈ record.accessors, accessor.Fits
  visits : visitForm.Fits record.visits
  inclusion : record.inclusion.Fits

/-- A file can be written if each of its lines can be. -/
structure CodeFile.Fits (file : CodeFile) : Prop where
  uses : ∀ path ∈ file.uses, useForm.Fits path
  methods : ∀ method ∈ file.methods, methodForm.Fits method
  base : sumForm.Fits file.base
  variants : ∀ variant ∈ file.variants, variantForm.Fits variant
  owner : implForm.Fits file.owner
  arms : ∀ arm ∈ file.arms, armForm.Fits arm
  records : ∀ record ∈ file.records, record.Fits

/-! ## Lists of a constructor -/

theorem Form.listed_text {Content : Type} {form : Form Content} {content : Content}
    (fits : form.Fits content) (begins : form.template.begins = true)
    (noComma : form.template.lacks ',' = true) : Listed (form.text content) := by
  obtain ⟨first, isFirst, notSpace, -⟩ := Template.begins_fill begins fits
  refine ⟨fun empty => ?_, Template.lacks_fill noComma fits, fun space => notSpace ?_⟩
  · rw [← text, empty] at isFirst
    cases isFirst
  · rw [text, isFirst] at space
    exact Option.some.inj space

theorem lineBreak_not_mem_joined {list : List String} (within : ∀ part ∈ list, '\n' ∉ part.toList) :
    '\n' ∉ (joined list).toList := by
  induction list with
  | nil => simp [joined]
  | cons part others ih =>
    obtain ⟨withinPart, withinOthers⟩ := List.forall_mem_cons.1 within
    cases others with
    | nil => simpa [joined] using withinPart
    | cons other others =>
      rw [joined, String.intercalate_cons_cons, ← joined]
      simpa [withinPart] using ih withinOthers

section Parameters

variable {parameters : List Binding} (fits : ∀ parameter ∈ parameters, parameterForm.Fits parameter)
include fits

theorem parameters_fit :
    constructorForm.Fits (joined (parameters.map parameterForm.text)) := by
  refine lineBreak_not_mem_joined (List.forall_mem_map.2 fun parameter inList => ?_)
  exact Template.lacks_fill (by decide) (fits parameter inList)

theorem read_parameters :
    (parts (joined (parameters.map parameterForm.text))).mapM parameterForm.read? =
      some parameters := by
  rw [parts_joined]
  · exact mapM_map_eq_some fun parameter inList => Form.read?_text (fits parameter inList)
  · refine List.forall_mem_map.2 fun parameter inList => ?_
    exact Form.listed_text (fits parameter inList) (by decide) (by decide)

end Parameters

namespace Filling

variable {filling : Filling} (fits : filling.Fits)
include fits

theorem holds_parameter : Gap.name.Holds filling.parameter := fits.1.2.1

theorem listed_text : Listed filling.text := by
  rw [text]
  split
  · refine ⟨fits.2, fun comma => ?_, fun space => ?_⟩
    · exact absurd (holds_parameter fits ',' comma) (by decide)
    · exact absurd (holds_parameter fits ' ' (List.mem_of_head? space)) (by decide)
  · exact Form.listed_text fits.1 (by decide) (by decide)

theorem lineBreak_not_mem_text : '\n' ∉ filling.text.toList := by
  rw [text]
  split
  · intro lineBreak
    exact absurd (holds_parameter fits '\n' lineBreak) (by decide)
  · exact Template.lacks_fill (by decide) fits.1

@[simp] theorem ofText_text : ofText filling.text = filling := by
  rw [ofText, text]
  split
  next same =>
    -- a name ends without the colon that the form asks for
    have short : filling.parameter.toList.dropWhile Gap.name.accepts = [] :=
      List.dropWhile_eq_nil_iff.2 (holds_parameter fits)
    have unread : fillingForm.read? filling.parameter = none := by
      rw [Form.read?, fillingForm, Template.read?, short]
      rfl
    rw [unread, Option.getD_none]
    cases filling
    cases same
    rfl
  next => rw [Form.read?_text fits.1, Option.getD_some]

end Filling

section Fillings

variable {fillings : List Filling} (fits : ∀ filling ∈ fillings, filling.Fits)
include fits

theorem constructorLine_eq :
    fillings = [] ∧ constructorLine fillings = emptyForm.text () ∨
      constructorLine fillings = filledForm.text (joined (fillings.map Filling.text)) := by
  cases fillings with
  | nil => exact .inl ⟨rfl, rfl⟩
  | cons filling others =>
    have nonempty := joined_ne_empty (Filling.listed_text (fits filling (by simp)))
      (others.map Filling.text)
    refine .inr ?_
    rw [constructorLine, List.map_cons]
    exact if_neg (by simpa using nonempty)

theorem fillings_fit : filledForm.Fits (joined (fillings.map Filling.text)) := by
  refine lineBreak_not_mem_joined (List.forall_mem_map.2 fun filling inList => ?_)
  exact Filling.lineBreak_not_mem_text (fits filling inList)

theorem wellFormed_constructorLine : (Code.line (constructorLine fillings)).WellFormed := by
  rcases constructorLine_eq fits with ⟨-, line⟩ | line <;> rw [line]
  · exact LineForm.wellFormed_line LineForm.fixed_fits
  · exact LineForm.wellFormed_line (fillings_fit fits)

theorem readFillings?_constructorLine :
    readFillings? (constructorLine fillings) = some fillings := by
  rcases constructorLine_eq fits with ⟨none, line⟩ | line <;> rw [line, readFillings?]
  · rw [none, Form.read?_of_clashes (by decide)]
    rfl
  · have listed : ∀ text ∈ fillings.map Filling.text, Listed text :=
      List.forall_mem_map.2 fun filling inList => Filling.listed_text (fits filling inList)
    have back : (fillings.map Filling.text).map Filling.ofText = fillings := by
      rw [List.map_map]
      exact (List.map_congr_left fun filling inList =>
        Filling.ofText_text (fits filling inList)).trans (List.map_id fillings)
    rw [Form.read?_text (fillings_fit fits)]
    dsimp only
    rw [parts_joined listed, back]

end Fillings

/-! ## Blocks -/

namespace Accessor

variable {accessor : Accessor} (fits : accessor.Fits)
include fits

theorem wellFormed_code : accessor.code.WellFormed :=
  LineForm.wellFormed_block fits.1 ⟨LineForm.wellFormed_line fits.2, trivial⟩

theorem ofCode?_code : ofCode? accessor.code = some accessor := by
  simp [ofCode?, code, Form.read?_text fits.1, Form.read?_text fits.2]

end Accessor

namespace Inclusion

variable {inclusion : Inclusion} (fits : inclusion.Fits)
include fits

theorem wellFormed_code : inclusion.code.WellFormed :=
  LineForm.wellFormed_block fits.1
    ⟨LineForm.wellFormed_block fits.2.1 ⟨LineForm.wellFormed_line fits.2.2, trivial⟩, trivial⟩

theorem ofCode?_code : ofCode? inclusion.code = some inclusion := by
  simp [ofCode?, code, Form.read?_text fits.1, Form.read?_text fits.2.1,
    Form.read?_text fits.2.2]

end Inclusion

theorem read?_acceptForm : acceptForm.read? (acceptForm.text ()) = some () :=
  Form.read?_text LineForm.fixed_fits

theorem wellFormed_blankLine : blankLine.WellFormed := by
  refine ⟨⟨?_, ?_⟩, ?_, ?_⟩ <;> decide

theorem wellFormed_derivedLine : derivedLine.WellFormed := by
  refine ⟨⟨?_, ?_⟩, ?_, ?_⟩ <;> decide

namespace RecordCode

variable {record : RecordCode} (fits : record.Fits)
include fits

theorem readConstructor?_code :
    readConstructor? record.constructorCode = some (record.parameters, record.fillings) := by
  simp [readConstructor?, constructorCode, Form.read?_text (parameters_fit fits.parameters),
    read_parameters fits.parameters, readFillings?_constructorLine fits.fillings]

theorem readAccept?_code : readAccept? record.acceptCode = some record.visits := by
  simp [readAccept?, acceptCode, read?_acceptForm, Form.read?_text fits.visits]

omit fits in
/-- The functions of a record are the constructor, those that read its fields, and the one that
accepts a visitor. -/
theorem filter_functions :
    (record.constructorCode ::
      record.accessors.flatMap (fun accessor => [blankLine, accessor.code]) ++
      [blankLine, record.acceptCode]).filter Code.isBlock =
      record.constructorCode :: (record.accessors.map Accessor.code ++ [record.acceptCode]) := by
  have accessors : (record.accessors.flatMap fun accessor =>
      [blankLine, accessor.code]).filter Code.isBlock = record.accessors.map Accessor.code := by
    induction record.accessors with
    | nil => rfl
    | cons accessor others ih =>
      rw [List.flatMap_cons, List.filter_append, ih]
      rfl
  rw [List.cons_append, List.filter_cons_of_pos rfl, List.filter_append, accessors]
  rfl

theorem ofCode?_code :
    ofCode? record.declarationCode record.functionsCode record.inclusion.code = some record := by
  have accessors : (record.accessors.map Accessor.code).mapM Accessor.ofCode? =
      some record.accessors :=
    mapM_map_eq_some fun accessor inRecord =>
      Accessor.ofCode?_code (fits.accessors accessor inRecord)
  simp only [ofCode?, declarationCode, functionsCode, filter_functions, List.dropLast_concat,
    List.getLast?_concat, Form.read?_text fits.name, LineForm.mapM_lineOf?_lines fits.fields,
    Form.read?_text fits.owner, readConstructor?_code fits, accessors, readAccept?_code fits,
    Inclusion.ofCode?_code fits.inclusion, Option.bind_eq_bind, Option.bind_some]

omit fits in
theorem filter_code :
    record.code.filter Code.isBlock =
      [record.declarationCode, record.functionsCode, record.inclusion.code] :=
  rfl

theorem wellFormed_constructorCode : record.constructorCode.WellFormed :=
  LineForm.wellFormed_block (parameters_fit fits.parameters)
    ⟨wellFormed_constructorLine fits.fillings, trivial⟩

theorem wellFormed_acceptCode : record.acceptCode.WellFormed :=
  LineForm.wellFormed_block LineForm.fixed_fits ⟨LineForm.wellFormed_line fits.visits, trivial⟩

theorem allWellFormed_code : Code.AllWellFormed record.code := by
  have functions : Code.AllWellFormed (record.constructorCode ::
      record.accessors.flatMap (fun accessor => [blankLine, accessor.code]) ++
      [blankLine, record.acceptCode]) := by
    rw [Code.allWellFormed_iff, List.forall_mem_append, List.forall_mem_cons]
    refine ⟨⟨wellFormed_constructorCode fits, fun part member => ?_⟩, ?_⟩
    · obtain ⟨accessor, inRecord, isPart⟩ := List.mem_flatMap.1 member
      simp only [List.mem_cons, List.not_mem_nil, or_false] at isPart
      rcases isPart with rfl | rfl
      · exact wellFormed_blankLine
      · exact Accessor.wellFormed_code (fits.accessors accessor inRecord)
    · simp [wellFormed_blankLine, wellFormed_acceptCode fits]
  exact ⟨wellFormed_blankLine, wellFormed_derivedLine,
    LineForm.wellFormed_block fits.name (LineForm.allWellFormed_lines fits.fields),
    wellFormed_blankLine, LineForm.wellFormed_block fits.owner functions,
    wellFormed_blankLine, Inclusion.wellFormed_code fits.inclusion, trivial⟩

end RecordCode

theorem readRecords?_code {records : List RecordCode} (fits : ∀ record ∈ records, record.Fits) :
    readRecords? ((records.flatMap RecordCode.code).filter Code.isBlock) = some records := by
  induction records with
  | nil => rfl
  | cons record others ih =>
    obtain ⟨fitsFirst, fitsOthers⟩ := List.forall_mem_cons.1 fits
    rw [List.flatMap_cons, List.filter_append, RecordCode.filter_code]
    simp [readRecords?, RecordCode.ofCode?_code fitsFirst, ih fitsOthers]

namespace CodeFile

variable {file : CodeFile} (fits : file.Fits)
include fits

theorem readDispatch?_code : readDispatch? file.dispatchCode = some (file.owner, file.arms) := by
  have dispatches : matchForm.read? (matchForm.text ()) = some () :=
    Form.read?_text LineForm.fixed_fits
  simp [readDispatch?, dispatchCode, read?_acceptForm, dispatches, Form.read?_text fits.owner,
    LineForm.mapM_lineOf?_lines fits.arms]

omit fits in
/-- The blocks of a file are the visitors, the sum type, the dispatch, and the blocks for the
record types. -/
theorem filter_code :
    file.code.filter Code.isBlock =
      file.visitorCode :: file.sumCode :: file.dispatchCode ::
        (file.records.flatMap RecordCode.code).filter Code.isBlock := by
  have noBlocks : (useForm.lines file.uses).filter Code.isBlock = [] := by
    rw [List.filter_eq_nil_iff]
    intro part member
    obtain ⟨path, -, rfl⟩ := List.mem_map.1 member
    exact Bool.false_ne_true
  rw [code, List.filter_append, List.filter_append, List.filter_append, noBlocks]
  rfl

theorem filterMap_uses : file.code.filterMap useForm.lineOf? = file.uses := by
  have ofRecords : (file.records.flatMap RecordCode.code).filterMap useForm.lineOf? = [] := by
    induction file.records with
    | nil => rfl
    | cons record others ih =>
      rw [List.flatMap_cons, List.filterMap_append, ih]
      rfl
  have ofSum : [blankLine, file.visitorCode, blankLine, derivedLine, file.sumCode, blankLine,
      file.dispatchCode].filterMap useForm.lineOf? = [] := rfl
  rw [code, List.filterMap_append, List.filterMap_append, List.filterMap_append, ofSum, ofRecords,
    LineForm.filterMap_lineOf?_lines fits.uses, List.append_nil, List.append_nil]
  rfl

theorem ofCode?_code : ofCode? file.code = some file := by
  have visits : visitorForm.read? (visitorForm.text ()) = some () :=
    Form.read?_text LineForm.fixed_fits
  simp only [ofCode?, filter_code, visitorCode, sumCode, visits,
    LineForm.mapM_lineOf?_lines fits.methods, Form.read?_text fits.base,
    LineForm.mapM_lineOf?_lines fits.variants, readDispatch?_code fits,
    readRecords?_code fits.records, filterMap_uses fits, Option.bind_eq_bind, Option.bind_some]

theorem wellFormed_dispatchCode : file.dispatchCode.WellFormed :=
  LineForm.wellFormed_block fits.owner
    ⟨LineForm.wellFormed_block LineForm.fixed_fits
      ⟨LineForm.wellFormed_block LineForm.fixed_fits (LineForm.allWellFormed_lines fits.arms),
        trivial⟩,
      trivial⟩

theorem allWellFormed_code : Code.AllWellFormed file.code := by
  have comment : (Code.line "// Generated by ast_generator, do not modify.").WellFormed := by
    refine ⟨⟨?_, ?_⟩, ?_, ?_⟩ <;> decide
  have visitor : file.visitorCode.WellFormed :=
    LineForm.wellFormed_block LineForm.fixed_fits (LineForm.allWellFormed_lines fits.methods)
  have sum : file.sumCode.WellFormed :=
    LineForm.wellFormed_block fits.base (LineForm.allWellFormed_lines fits.variants)
  have uses := Code.allWellFormed_iff.1 (LineForm.allWellFormed_lines fits.uses)
  rw [Code.allWellFormed_iff, code]
  simp only [List.forall_mem_append, List.forall_mem_cons]
  refine ⟨⟨⟨⟨comment, nofun⟩, uses⟩, wellFormed_blankLine, visitor, wellFormed_blankLine,
    wellFormed_derivedLine, sum, wellFormed_blankLine, wellFormed_dispatchCode fits, nofun⟩, ?_⟩
  intro part member
  obtain ⟨record, inFile, isPart⟩ := List.mem_flatMap.1 member
  exact Code.allWellFormed_iff.1 (RecordCode.allWellFormed_code (fits.records record inFile))
    part isPart

theorem ofText?_layout :
    (Code.ofText (layout (Code.linesOf file.code))).bind ofCode? = some file := by
  rw [Code.ofText_layout (allWellFormed_code fits), Option.bind_some, ofCode?_code fits]

end CodeFile

end Reckon.Schema
