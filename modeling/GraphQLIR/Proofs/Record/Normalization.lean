import GraphQLIR.Proofs.Traversal
import GraphQLIR.Record.SchemaRecords
/-!
# Normalized records

An accepted definition becomes a record of its name and kind that lists what the definition
declares, one for one and in order. The types in a record are declared in the schema as of the
kinds that the record has for them.
-/

namespace GraphQLIR

namespace Catalog

/-- The type is declared, and is of the kind that it is classified as. -/
def Knows (catalog : Catalog) (type : TypeRef) : Prop :=
  catalog.get? type.name = some type.kind

theorem knows_of_classify_eq_ok {catalog : Catalog} {type : TypeExpr} {classified : TypeRef}
    (h : catalog.classify type = .ok classified) : catalog.Knows classified := by
  obtain ⟨kind, hkind, hclassified⟩ := bind_eq_ok_iff.1 h
  cases hclassified
  unfold Catalog.kind at hkind
  unfold Knows
  cases hget : catalog.get? type.innermost with
  | none =>
    rw [hget] at hkind
    cases hkind
  | some other =>
    rw [hget] at hkind
    cases hkind
    rfl

theorem classify_eq_ok {catalog : Catalog} {type : TypeExpr} {classified : TypeRef}
    (h : catalog.classify type = .ok classified) :
    classified.name = type.innermost ∧ classified.raw = type.text := by
  obtain ⟨kind, -, hclassified⟩ := bind_eq_ok_iff.1 h
  cases hclassified
  exact ⟨rfl, rfl⟩

/-- The type is what a type expression is classified as. -/
def Classifies (catalog : Catalog) (type : TypeRef) : Prop :=
  ∃ expression, catalog.classify expression = .ok type

theorem Classifies.knows {catalog : Catalog} {type : TypeRef} (h : catalog.Classifies type) :
    catalog.Knows type := by
  obtain ⟨expression, hexpression⟩ := h
  exact knows_of_classify_eq_ok hexpression

/-- Nothing but the kind of the innermost type matters. -/
theorem classify_congr {first second : Catalog} {type : TypeExpr}
    (h : first.get? type.innermost = second.get? type.innermost) :
    first.classify type = second.classify type := by
  unfold classify kind
  rw [h]

theorem get?_eq_none_iff (catalog : Catalog) (name : String) :
    catalog.get? name = none ↔ name ∉ catalog.keys :=
  Entries.get?_eq_none_iff catalog.entries name

section

variable (catalog : Catalog) (type : TypeExpr)

theorem faultOf_classify_eq_ite :
    faultOf (catalog.classify type) =
      if type.innermost ∈ catalog.keys then none else some (.undeclaredType type.innermost) := by
  have hnone := catalog.get?_eq_none_iff type.innermost
  unfold classify kind
  cases hget : catalog.get? type.innermost with
  | none => rw [if_neg (hnone.1 hget)]; rfl
  | some kind =>
    have hdeclared : type.innermost ∈ catalog.keys := by
      by_contra hnot
      rw [hnone.2 hnot] at hget
      cases hget
    rw [if_pos hdeclared]
    rfl

theorem classify_eq_error_iff (fault : Fault) :
    catalog.classify type = .error fault ↔
      type.innermost ∉ catalog.keys ∧ fault = .undeclaredType type.innermost := by
  rw [← faultOf_eq_some_iff, faultOf_classify_eq_ite, Option.ite_none_left_eq_some,
    Option.some.injEq, eq_comm]

theorem exists_classify_eq_ok_iff :
    (∃ classified, catalog.classify type = .ok classified) ↔ type.innermost ∈ catalog.keys := by
  rw [← faultOf_eq_none_iff, faultOf_classify_eq_ite, ite_eq_left_iff, imp_iff_not_or, not_not]
  exact or_iff_left (Option.some_ne_none _)

end

end Catalog

/-! ## The types of a record -/

/-- The types of the arguments and that of the field itself. -/
def FieldRecord.typeRefs (record : FieldRecord) : List TypeRef :=
  record.arguments.map ArgumentRecord.type ++ [record.type]

def DirectiveRecord.typeRefs (record : DirectiveRecord) : List TypeRef :=
  record.arguments.map ArgumentRecord.type

namespace DefinitionRecord

def kind : DefinitionRecord → TypeKind
  | .object _ => .object
  | .inputObject _ => .inputObject
  | .interface _ => .interface
  | .union _ => .union
  | .enum _ => .enum
  | .scalar _ => .scalar

def fields : DefinitionRecord → List FieldRecord
  | .object record => record.fields
  | .inputObject record => record.fields
  | .interface record => record.fields
  | .union _ | .enum _ | .scalar _ => []

def typeRefs (record : DefinitionRecord) : List TypeRef :=
  record.fields.flatMap FieldRecord.typeRefs

def description : DefinitionRecord → Option String
  | .object record => record.description
  | .inputObject record => record.description
  | .interface record => record.description
  | .union record => record.description
  | .enum record => record.description
  | .scalar record => record.description

def directives : DefinitionRecord → AppliedDirectives
  | .object record => record.directives
  | .inputObject record => record.directives
  | .interface record => record.directives
  | .union record => record.directives
  | .enum record => record.directives
  | .scalar record => record.directives

def hasFields : DefinitionRecord → Bool
  | .object record => record.hasFields
  | .inputObject record => record.hasFields
  | .interface record => record.hasFields
  | .union _ | .enum _ | .scalar _ => false

def interfaces : DefinitionRecord → List String
  | .object record => record.interfaces
  | .inputObject record => record.interfaces
  | .interface record => record.interfaces
  | .union _ | .enum _ | .scalar _ => []

def hasInterfaces : DefinitionRecord → Bool
  | .object record => record.hasInterfaces
  | .inputObject record => record.hasInterfaces
  | .interface record => record.hasInterfaces
  | .union _ | .enum _ | .scalar _ => false

def members : DefinitionRecord → List String
  | .union record => record.members
  | _ => []

def values : DefinitionRecord → List EnumValueRecord
  | .enum record => record.values
  | _ => []

/-- The mark of input objects. -/
def isInput : DefinitionRecord → Bool
  | .object record => record.isInput
  | .inputObject record => record.isInput
  | _ => false

end DefinitionRecord

namespace SchemaRecords

/-- All fields, kind by kind. -/
def fields (records : SchemaRecords) : List FieldRecord :=
  records.objects.flatMap ObjectRecord.fields ++ records.inputObjects.flatMap ObjectRecord.fields ++
    records.interfaces.flatMap InterfaceRecord.fields

/-- The arguments of all fields and directives. -/
def arguments (records : SchemaRecords) : List ArgumentRecord :=
  records.fields.flatMap FieldRecord.arguments ++
    records.directiveRecords.flatMap DirectiveRecord.arguments

end SchemaRecords

/-! ## What a definition declares -/

/-- A field of an input object as a field without arguments. -/
def InputValueDefinition.asField (definition : InputValueDefinition) : FieldDefinition where
  description := definition.description
  arguments := []
  type := definition.type
  directives := definition.directives

namespace TypeBody

def fields : TypeBody → Entries FieldDefinition
  | .object _ fields => fields.entries
  | .interface _ fields => fields.entries
  | .inputObject fields => fields.entries.map fun (name, definition) => (name, definition.asField)
  | .union _ | .enum _ | .scalar => []

def interfaces : TypeBody → List String
  | .object interfaces _ => interfaces.names
  | .interface interfaces _ => interfaces.names
  | _ => []

def members : TypeBody → List String
  | .union members => members.names
  | _ => []

def values : TypeBody → Entries EnumValueDefinition
  | .enum values => values.entries
  | _ => []

end TypeBody

/-! ## Arguments, fields and enum values -/

section

variable [NumberReader] {catalog : Catalog} {name : String} {type : TypeRef}

namespace ArgumentRecord

/-- The record of an argument of this name and definition. -/
structure IsOf (catalog : Catalog) (entry : String × InputValueDefinition)
    (record : ArgumentRecord) : Prop where
  name_eq : record.name = entry.1
  description_eq : record.description = entry.2.description
  classify_eq : catalog.classify entry.2.type = .ok record.type
  default_eq : record.default = entry.2.default.map Value.toJson
  directives_eq : record.directives = .ofApplications entry.2.directives

theorem isOf_of_ofDefinition_eq_ok {definition : InputValueDefinition} {record : ArgumentRecord}
    (h : ofDefinition catalog name definition = .ok record) :
    IsOf catalog (name, definition) record := by
  obtain ⟨type, htype, hrecord⟩ := bind_eq_ok_iff.1 h
  rw [← Except.ok.inj hrecord]
  exact ⟨rfl, rfl, htype, rfl, rfl⟩

theorem forall₂_isOf {definitions : List (String × InputValueDefinition)}
    {records : List ArgumentRecord} (h : ofDefinitions catalog definitions = .ok records) :
    List.Forall₂ (IsOf catalog) definitions records :=
  (mapM_eq_ok_iff.1 h).imp fun _ _ => isOf_of_ofDefinition_eq_ok

theorem classifies_of_mem {definitions : List (String × InputValueDefinition)}
    {records : List ArgumentRecord} (h : List.Forall₂ (IsOf catalog) definitions records)
    (htype : type ∈ records.map ArgumentRecord.type) : catalog.Classifies type := by
  obtain ⟨record, hrecord, rfl⟩ := List.mem_map.1 htype
  obtain ⟨definition, -, hdefinition⟩ := exists_mem_of_forall₂_right h hrecord
  exact ⟨_, hdefinition.classify_eq⟩

end ArgumentRecord

namespace FieldRecord

/-- The record of a field, with one record for each of its arguments. -/
structure IsOf (catalog : Catalog) (entry : String × FieldDefinition) (record : FieldRecord) :
    Prop where
  name_eq : record.name = entry.1
  description_eq : record.description = entry.2.description
  arguments : List.Forall₂ (ArgumentRecord.IsOf catalog) entry.2.arguments record.arguments
  hasArguments_eq : record.hasArguments = !record.arguments.isEmpty
  classify_eq : catalog.classify entry.2.type = .ok record.type
  directives_eq : record.directives = .ofApplications entry.2.directives

theorem isOf_of_ofDefinition_eq_ok {definition : FieldDefinition} {record : FieldRecord}
    (h : ofDefinition catalog name definition = .ok record) :
    IsOf catalog (name, definition) record := by
  obtain ⟨arguments, harguments, h⟩ := bind_eq_ok_iff.1 h
  obtain ⟨type, htype, hrecord⟩ := bind_eq_ok_iff.1 h
  rw [← Except.ok.inj hrecord]
  exact ⟨rfl, rfl, ArgumentRecord.forall₂_isOf harguments, rfl, htype, rfl⟩

theorem ofInputDefinition_eq (catalog : Catalog) (name : String)
    (definition : InputValueDefinition) :
    ofInputDefinition catalog name definition = ofDefinition catalog name definition.asField :=
  rfl

theorem ofInputDefinitions_eq (catalog : Catalog) (definitions : OrderedMap InputValueDefinition) :
    ofInputDefinitions catalog definitions =
      (TypeBody.inputObject definitions).fields.mapM fun entry =>
        ofDefinition catalog entry.1 entry.2 := by
  unfold ofInputDefinitions TypeBody.fields
  rw [List.mapM_map]
  apply mapM_congr
  intro entry _
  exact ofInputDefinition_eq catalog entry.1 entry.2

theorem IsOf.classifies {entry : String × FieldDefinition} {record : FieldRecord}
    (h : IsOf catalog entry record) (htype : type ∈ record.typeRefs) : catalog.Classifies type := by
  rcases List.mem_append.1 htype with hargument | hself
  · exact ArgumentRecord.classifies_of_mem h.arguments hargument
  · rw [List.mem_singleton.1 hself]
    exact ⟨_, h.classify_eq⟩

end FieldRecord

structure EnumValueRecord.IsOf (entry : String × EnumValueDefinition) (record : EnumValueRecord) :
    Prop where
  name_eq : record.name = entry.1
  description_eq : record.description = entry.2.description
  directives_eq : record.directives = .ofApplications entry.2.directives

/-! ## Types and directives -/

namespace DefinitionRecord

/-- Whatever the kind, only the fields can fail, and the rest of the record does not depend on the
catalog. -/
theorem ofDefinition_eq (catalog : Catalog) (name : String) (definition : TypeDefinition) :
    ofDefinition catalog name definition = ofFields name definition <$>
      definition.body.fields.mapM fun entry =>
        FieldRecord.ofDefinition catalog entry.1 entry.2 := by
  unfold ofDefinition
  rw [map_eq_pure_bind]
  cases definition.body with
  | inputObject fields =>
    rw [← FieldRecord.ofInputDefinitions_eq]
  | object interfaces fields | interface interfaces fields | union members | enum values | scalar =>
    rfl

/-- The record of a type of this name and definition, with everything that the definition lists.
What types of its kind do not have is empty. -/
structure IsOf (catalog : Catalog) (entry : String × TypeDefinition) (record : DefinitionRecord) :
    Prop where
  name_eq : record.name = entry.1
  kind_eq : record.kind = entry.2.body.kind
  description_eq : record.description = entry.2.description
  directives_eq : record.directives = .ofApplications entry.2.directives
  fields : List.Forall₂ (FieldRecord.IsOf catalog) entry.2.body.fields record.fields
  hasFields_eq : record.hasFields = !record.fields.isEmpty
  interfaces_eq : record.interfaces = entry.2.body.interfaces
  hasInterfaces_eq : record.hasInterfaces = !record.interfaces.isEmpty
  members_eq : record.members = entry.2.body.members
  values : List.Forall₂ EnumValueRecord.IsOf entry.2.body.values record.values
  isInput_eq : record.isInput = (entry.2.body.kind == .inputObject)

theorem isOf_ofFields {definition : TypeDefinition} {fields : List FieldRecord}
    (h : List.Forall₂ (FieldRecord.IsOf catalog) definition.body.fields fields) :
    IsOf catalog (name, definition) (ofFields name definition fields) := by
  obtain ⟨description, isBuiltIn, directives, body⟩ := definition
  cases body with
  | object interfaces declared | inputObject declared | interface interfaces declared =>
    exact ⟨rfl, rfl, rfl, rfl, h, rfl, rfl, rfl, rfl, .nil, rfl⟩
  | union members | scalar =>
    exact ⟨rfl, rfl, rfl, rfl, .nil, rfl, rfl, rfl, rfl, .nil, rfl⟩
  | enum values =>
    have hvalues : List.Forall₂ EnumValueRecord.IsOf values.entries
        (values.entries.map fun entry => EnumValueRecord.ofDefinition entry.1 entry.2) := by
      rw [List.forall₂_map_right_iff, List.forall₂_same]
      intro entry _
      exact ⟨rfl, rfl, rfl⟩
    exact ⟨rfl, rfl, rfl, rfl, .nil, rfl, rfl, rfl, rfl, hvalues, rfl⟩

theorem isOf_of_ofDefinition_eq_ok {definition : TypeDefinition} {record : DefinitionRecord}
    (h : ofDefinition catalog name definition = .ok record) :
    IsOf catalog (name, definition) record := by
  rw [ofDefinition_eq, map_eq_ok_iff] at h
  obtain ⟨fields, hfields, rfl⟩ := h
  exact isOf_ofFields <| (mapM_eq_ok_iff.1 hfields).imp
    fun _ _ => FieldRecord.isOf_of_ofDefinition_eq_ok

theorem IsOf.classifies {entry : String × TypeDefinition} {record : DefinitionRecord}
    (h : IsOf catalog entry record) (htype : type ∈ record.typeRefs) : catalog.Classifies type := by
  obtain ⟨field, hfield, htype⟩ := List.mem_flatMap.1 htype
  obtain ⟨definition, -, hdefinition⟩ := exists_mem_of_forall₂_right h.fields hfield
  exact hdefinition.classifies htype

end DefinitionRecord

namespace DirectiveRecord

structure IsOf (catalog : Catalog) (entry : String × DirectiveDefinition)
    (record : DirectiveRecord) : Prop where
  name_eq : record.name = entry.1
  description_eq : record.description = entry.2.description
  locations_eq : record.locations = entry.2.locations
  arguments : List.Forall₂ (ArgumentRecord.IsOf catalog) entry.2.arguments record.arguments
  hasArguments_eq : record.hasArguments = !record.arguments.isEmpty
  repeatable_eq : record.repeatable = entry.2.repeatable
  on_eq : record.on = .ofList entry.2.locations

theorem isOf_of_ofDefinition_eq_ok {definition : DirectiveDefinition} {record : DirectiveRecord}
    (h : ofDefinition catalog name definition = .ok record) :
    IsOf catalog (name, definition) record := by
  obtain ⟨arguments, harguments, hrecord⟩ := bind_eq_ok_iff.1 h
  rw [← Except.ok.inj hrecord]
  exact ⟨rfl, rfl, rfl, ArgumentRecord.forall₂_isOf harguments, rfl, rfl, rfl⟩

theorem IsOf.classifies {entry : String × DirectiveDefinition} {record : DirectiveRecord}
    (h : IsOf catalog entry record) (htype : type ∈ record.typeRefs) : catalog.Classifies type :=
  ArgumentRecord.classifies_of_mem h.arguments htype

end DirectiveRecord

end

end GraphQLIR
