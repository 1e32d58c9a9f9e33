import GraphQLIR.Proofs.Json.Flags
import GraphQLIR.Proofs.Record.Normalization
/-!
# Derived flags of schemas

The flags of a record are stored in it when it is made. Each way of making one sets them as the rest
of the record demands, and then all flags are right in the JSON form: those of types and directives,
of their fields and arguments, and of the types that these refer to.
-/

namespace GraphQLIR

open Json

theorem TypeExpr.isList_of_hasNullableItems {type : TypeExpr} (h : type.hasNullableItems = true) :
    type.isList = true := by
  cases type with
  | named name | nonNullNamed name => cases h
  | list item | nonNullList item => rfl

theorem Catalog.Classifies.nullsInArray {catalog : Catalog} {type : TypeRef}
    (h : catalog.Classifies type) : type.NullsInArray := by
  obtain ⟨expression, hexpression⟩ := h
  obtain ⟨kind, -, htype⟩ := bind_eq_ok_iff.1 hexpression
  rw [← Except.ok.inj htype]
  exact TypeExpr.isList_of_hasNullableItems

theorem AppliedDirectives.flagged_of_eq [NumberReader] {applied : AppliedDirectives}
    {applications : List DirectiveApplication} (h : applied = .ofApplications applications) :
    applied.Flagged := by
  rw [h]
  exact flagged_ofApplications applications

/-! ## Records with right flags -/

/-- The flags of a record and of all records in it say what is stored beside them. -/
structure ArgumentRecord.Flagged (record : ArgumentRecord) : Prop where
  type : record.type.NullsInArray
  directives : record.directives.Flagged

@[inherit_doc ArgumentRecord.Flagged]
structure FieldRecord.Flagged (record : FieldRecord) : Prop where
  arguments : ∀ argument ∈ record.arguments, argument.Flagged
  hasArguments_eq : record.hasArguments = !record.arguments.isEmpty
  type : record.type.NullsInArray
  directives : record.directives.Flagged

@[inherit_doc ArgumentRecord.Flagged]
structure ObjectRecord.Flagged (record : ObjectRecord) : Prop where
  fields : ∀ field ∈ record.fields, field.Flagged
  hasFields_eq : record.hasFields = !record.fields.isEmpty
  hasInterfaces_eq : record.hasInterfaces = !record.interfaces.isEmpty
  directives : record.directives.Flagged

@[inherit_doc ArgumentRecord.Flagged]
structure InterfaceRecord.Flagged (record : InterfaceRecord) : Prop where
  fields : ∀ field ∈ record.fields, field.Flagged
  hasFields_eq : record.hasFields = !record.fields.isEmpty
  hasInterfaces_eq : record.hasInterfaces = !record.interfaces.isEmpty
  directives : record.directives.Flagged

@[inherit_doc ArgumentRecord.Flagged]
structure EnumRecord.Flagged (record : EnumRecord) : Prop where
  values : ∀ value ∈ record.values, value.directives.Flagged
  directives : record.directives.Flagged

@[inherit_doc ArgumentRecord.Flagged]
structure DirectiveRecord.Flagged (record : DirectiveRecord) : Prop where
  arguments : ∀ argument ∈ record.arguments, argument.Flagged
  hasArguments_eq : record.hasArguments = !record.arguments.isEmpty
  on_eq : record.on = .ofList record.locations

@[inherit_doc ArgumentRecord.Flagged]
def DefinitionRecord.Flagged : DefinitionRecord → Prop
  | .object record => record.Flagged
  | .inputObject record => record.Flagged
  | .interface record => record.Flagged
  | .union record => record.directives.Flagged
  | .enum record => record.Flagged
  | .scalar record => record.directives.Flagged

namespace SchemaRecords

/-- Each sequence has a flag that tells whether it has any records. -/
structure SequencesFlagged (records : SchemaRecords) : Prop where
  objects : records.hasObjects = !records.objects.isEmpty
  inputObjects : records.hasInputObjects = !records.inputObjects.isEmpty
  enums : records.hasEnums = !records.enums.isEmpty
  unions : records.hasUnions = !records.unions.isEmpty
  interfaces : records.hasInterfaces = !records.interfaces.isEmpty
  scalars : records.hasScalars = !records.scalars.isEmpty
  directiveRecords : records.hasDirectiveRecords = !records.directiveRecords.isEmpty

@[inherit_doc ArgumentRecord.Flagged]
structure Flagged (records : SchemaRecords) : Prop extends SequencesFlagged records where
  objectRecords : ∀ record ∈ records.objects, record.Flagged
  inputObjectRecords : ∀ record ∈ records.inputObjects, record.Flagged
  enumRecords : ∀ record ∈ records.enums, record.Flagged
  unionRecords : ∀ record ∈ records.unions, record.directives.Flagged
  interfaceRecords : ∀ record ∈ records.interfaces, record.Flagged
  scalarRecords : ∀ record ∈ records.scalars, record.directives.Flagged
  definedDirectives : ∀ record ∈ records.directiveRecords, record.Flagged
  directives : records.directives.Flagged

end SchemaRecords

/-! ## Flags of normalized records -/

section

variable [NumberReader] {catalog : Catalog}

theorem ArgumentRecord.IsOf.flagged {entry : String × InputValueDefinition}
    {record : ArgumentRecord} (h : IsOf catalog entry record) : record.Flagged where
  type := Catalog.Classifies.nullsInArray ⟨_, h.classify_eq⟩
  directives := AppliedDirectives.flagged_of_eq h.directives_eq

theorem FieldRecord.IsOf.flagged {entry : String × FieldDefinition} {record : FieldRecord}
    (h : IsOf catalog entry record) : record.Flagged where
  arguments := forall_mem_of_forall₂ (fun _ _ hargument => hargument.flagged) h.arguments
  hasArguments_eq := h.hasArguments_eq
  type := Catalog.Classifies.nullsInArray ⟨_, h.classify_eq⟩
  directives := AppliedDirectives.flagged_of_eq h.directives_eq

theorem DirectiveRecord.IsOf.flagged {entry : String × DirectiveDefinition}
    {record : DirectiveRecord} (h : IsOf catalog entry record) : record.Flagged where
  arguments := forall_mem_of_forall₂ (fun _ _ hargument => hargument.flagged) h.arguments
  hasArguments_eq := h.hasArguments_eq
  on_eq := h.locations_eq ▸ h.on_eq

theorem DefinitionRecord.IsOf.flagged {entry : String × TypeDefinition}
    {record : DefinitionRecord} (h : IsOf catalog entry record) : record.Flagged := by
  have hfields := forall_mem_of_forall₂ (fun _ _ hfield => FieldRecord.IsOf.flagged hfield) h.fields
  have hdirectives := AppliedDirectives.flagged_of_eq h.directives_eq
  cases record with
  | object record | inputObject record | interface record =>
    exact ⟨hfields, h.hasFields_eq, h.hasInterfaces_eq, hdirectives⟩
  | enum record =>
    have hvalues := forall_mem_of_forall₂
      (fun _ _ hvalue => AppliedDirectives.flagged_of_eq hvalue.directives_eq) h.values
    exact ⟨hvalues, hdirectives⟩
  | union record | scalar record => exact hdirectives

end

/-! ## Blocks of members -/

theorem listFlags_namedMembers (name : String) (description : Option String) :
    ListFlags (namedMembers name description) :=
  .of_plain namedKeys rfl (by decide)

theorem listFlags_argumentMembers {arguments : List ArgumentRecord} {hasArguments : Bool}
    (h : hasArguments = !arguments.isEmpty) : ListFlags (argumentMembers arguments hasArguments) :=
  .ofList (by decide) h

theorem listFlags_fieldMembers {fields : List FieldRecord} {hasFields : Bool}
    (h : hasFields = !fields.isEmpty) : ListFlags (fieldMembers fields hasFields) :=
  .ofList (by decide) h

theorem listFlags_interfaceMembers {interfaces : List String} {hasInterfaces : Bool}
    (h : hasInterfaces = !interfaces.isEmpty) :
    ListFlags (interfaceMembers interfaces hasInterfaces) :=
  .ofList (by decide) h

@[simp] theorem flagsDerivedBelow_namedMembers (name : String) (description : Option String) :
    FlagsDerivedBelow (namedMembers name description) := by
  simp [namedMembers]

@[simp] theorem flagsDerivedBelow_interfaceMembers (interfaces : List String)
    (hasInterfaces : Bool) : FlagsDerivedBelow (interfaceMembers interfaces hasInterfaces) := by
  simp [interfaceMembers]

/-! ## Arguments, fields and enum values -/

namespace ArgumentRecord.Flagged

theorem flagsDerived {record : ArgumentRecord} (h : record.Flagged) :
    record.toJson.FlagsDerived := by
  rw [toJson, flagsDerived_obj_iff]
  constructor
  · refine .of_type (.append (.append (.append ?_ ?_) ?_) ?_) (.of_members rfl) h.type rfl rfl rfl rfl
    · exact listFlags_namedMembers record.name record.description
    · exact record.type.listFlags_members
    · exact .single (by decide)
    · exact h.directives.listFlags_members
  · simp [freeKeys]

theorem flagsDerivedBelow_members {arguments : List ArgumentRecord} {hasArguments : Bool}
    (h : ∀ argument ∈ arguments, argument.Flagged) :
    FlagsDerivedBelow (argumentMembers arguments hasArguments) :=
  flagsDerivedBelow_pair fun argument hargument => (h argument hargument).flagsDerived

end ArgumentRecord.Flagged

namespace FieldRecord.Flagged

theorem flagsDerived {record : FieldRecord} (h : record.Flagged) : record.toJson.FlagsDerived := by
  rw [toJson, flagsDerived_obj_iff]
  constructor
  · refine .of_type (.append (.append (.append ?_ ?_) ?_) ?_) (.of_members rfl) h.type rfl rfl rfl rfl
    · exact listFlags_namedMembers record.name record.description
    · exact listFlags_argumentMembers h.hasArguments_eq
    · exact record.type.listFlags_members
    · exact h.directives.listFlags_members
  · simp [ArgumentRecord.Flagged.flagsDerivedBelow_members h.arguments]

theorem flagsDerivedBelow_members {fields : List FieldRecord} {hasFields : Bool}
    (h : ∀ field ∈ fields, field.Flagged) : FlagsDerivedBelow (fieldMembers fields hasFields) :=
  flagsDerivedBelow_pair fun field hfield => (h field hfield).flagsDerived

end FieldRecord.Flagged

theorem EnumValueRecord.flagsDerived {record : EnumValueRecord} (h : record.directives.Flagged) :
    record.toJson.FlagsDerived := by
  rw [toJson, flagsDerived_obj_iff]
  constructor
  · refine .of_lists (.cons ?_ (.cons ?_ (.cons ?_ h.listFlags_members))) rfl rfl rfl rfl <;> decide
  · simp [freeKeys]

/-! ## Types and directives -/

theorem ObjectRecord.Flagged.flagsDerived {record : ObjectRecord} (h : record.Flagged) :
    record.toJson.FlagsDerived := by
  rw [toJson, flagsDerived_obj_iff]
  constructor
  · refine .of_lists (.append (.append (.append (.append ?_ ?_) ?_) ?_) ?_) rfl rfl rfl rfl
    · exact listFlags_namedMembers record.name record.description
    · exact listFlags_fieldMembers h.hasFields_eq
    · exact .single (by decide)
    · exact listFlags_interfaceMembers h.hasInterfaces_eq
    · exact h.directives.listFlags_members
  · simp [FieldRecord.Flagged.flagsDerivedBelow_members h.fields]

theorem InterfaceRecord.Flagged.flagsDerived {record : InterfaceRecord} (h : record.Flagged) :
    record.toJson.FlagsDerived := by
  rw [toJson, flagsDerived_obj_iff]
  constructor
  · refine .of_lists (.append (.append (.append ?_ ?_) ?_) ?_) rfl rfl rfl rfl
    · exact listFlags_namedMembers record.name record.description
    · exact listFlags_fieldMembers h.hasFields_eq
    · exact listFlags_interfaceMembers h.hasInterfaces_eq
    · exact h.directives.listFlags_members
  · simp [FieldRecord.Flagged.flagsDerivedBelow_members h.fields]

theorem UnionRecord.flagsDerived {record : UnionRecord} (h : record.directives.Flagged) :
    record.toJson.FlagsDerived := by
  rw [toJson, flagsDerived_obj_iff]
  constructor
  · refine .of_lists (.append (.append ?_ ?_) ?_) rfl rfl rfl rfl
    · exact listFlags_namedMembers record.name record.description
    · exact .single (by decide)
    · exact h.listFlags_members
  · simp

theorem EnumRecord.Flagged.flagsDerived {record : EnumRecord} (h : record.Flagged) :
    record.toJson.FlagsDerived := by
  rw [toJson, flagsDerived_obj_iff]
  constructor
  · refine .of_lists (.append (.append ?_ ?_) ?_) rfl rfl rfl rfl
    · exact listFlags_namedMembers record.name record.description
    · exact .single (by decide)
    · exact h.directives.listFlags_members
  · have hbelow : ∀ value ∈ record.values, value.toJson.FlagsDerived :=
      fun value hvalue => EnumValueRecord.flagsDerived (h.values value hvalue)
    simpa using fun _ => hbelow

theorem ScalarRecord.flagsDerived {record : ScalarRecord} (h : record.directives.Flagged) :
    record.toJson.FlagsDerived := by
  rw [toJson, flagsDerived_obj_iff]
  constructor
  · refine .of_lists (.append ?_ ?_) rfl rfl rfl rfl
    · exact listFlags_namedMembers record.name record.description
    · exact h.listFlags_members
  · simp

theorem DirectiveRecord.Flagged.flagsDerived {record : DirectiveRecord} (h : record.Flagged) :
    record.toJson.FlagsDerived := by
  rw [toJson, flagsDerived_obj_iff]
  constructor
  · refine .of_lists (.append (.append (.append (.append ?_ ?_) ?_) ?_) ?_) rfl rfl rfl rfl
    · exact listFlags_namedMembers record.name record.description
    · exact .single (by decide)
    · exact listFlags_argumentMembers h.hasArguments_eq
    · exact .single (by decide)
    · exact .of_plain locationKeys rfl (by decide)
  · simp [locationMembers, DirectiveLocation.all,
      ArgumentRecord.Flagged.flagsDerivedBelow_members h.arguments]

/-! ## The schema -/

namespace SchemaRecords

theorem SequencesFlagged.listFlags_members {records : SchemaRecords}
    (h : records.SequencesFlagged) : ListFlags records.sequenceMembers := by
  simp only [sequenceMembers, h.objects, h.inputObjects, h.enums, h.unions, h.interfaces,
    h.scalars, h.directiveRecords, ← hasItems_ofList ObjectRecord.toJson,
    ← hasItems_ofList EnumRecord.toJson, ← hasItems_ofList UnionRecord.toJson,
    ← hasItems_ofList InterfaceRecord.toJson, ← hasItems_ofList ScalarRecord.toJson,
    ← hasItems_ofList DirectiveRecord.toJson]
  exact .of_keys sequenceKeys rfl (by decide) rfl

theorem Flagged.flagsDerived {records : SchemaRecords} (h : records.Flagged) :
    records.toJson.FlagsDerived := by
  rw [toJson, flagsDerived_obj_iff]
  constructor
  · exact .of_lists (h.listFlags_members.append h.directives.listFlags_members) rfl rfl rfl rfl
  · have hobjects : ∀ record ∈ records.objects, record.toJson.FlagsDerived :=
      fun record hrecord => (h.objectRecords record hrecord).flagsDerived
    have hinputObjects : ∀ record ∈ records.inputObjects, record.toJson.FlagsDerived :=
      fun record hrecord => (h.inputObjectRecords record hrecord).flagsDerived
    have henums : ∀ record ∈ records.enums, record.toJson.FlagsDerived :=
      fun record hrecord => (h.enumRecords record hrecord).flagsDerived
    have hunions : ∀ record ∈ records.unions, record.toJson.FlagsDerived :=
      fun record hrecord => UnionRecord.flagsDerived (h.unionRecords record hrecord)
    have hinterfaces : ∀ record ∈ records.interfaces, record.toJson.FlagsDerived :=
      fun record hrecord => (h.interfaceRecords record hrecord).flagsDerived
    have hscalars : ∀ record ∈ records.scalars, record.toJson.FlagsDerived :=
      fun record hrecord => ScalarRecord.flagsDerived (h.scalarRecords record hrecord)
    have hdirectives : ∀ record ∈ records.directiveRecords, record.toJson.FlagsDerived :=
      fun record hrecord => (h.definedDirectives record hrecord).flagsDerived
    simpa [sequenceMembers, freeKeys] using
      ⟨hobjects, hinputObjects, henums, hunions, hinterfaces, hscalars, hdirectives⟩

end SchemaRecords

end GraphQLIR
