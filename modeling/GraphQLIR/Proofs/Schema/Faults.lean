import GraphQLIR.Proofs.Schema.Partition
/-!
# Refused schemas

A schema is accepted just if the types of its fields and arguments are declared in it, as far as
they stand in definitions that are not built in. Otherwise it is refused for the first of them that
is not, types before directives and the arguments of a field before the field itself. Everything
else that a schema names may be undeclared.
-/

namespace GraphQLIR

/-! ## References in order -/

/-- The types of the arguments, then that of the field. -/
def FieldDefinition.references (definition : FieldDefinition) : List TypeExpr :=
  (definition.arguments.map fun entry => entry.2.type) ++ [definition.type]

/-- Fields of input objects have no arguments. -/
def TypeDefinition.references (definition : TypeDefinition) : List TypeExpr :=
  definition.body.fields.flatMap fun entry => entry.2.references

def DirectiveDefinition.references (definition : DirectiveDefinition) : List TypeExpr :=
  definition.arguments.map fun entry => entry.2.type

namespace Schema

/-- The types that definitions refer to which are not built in, in the order of their visit. -/
def references (schema : Schema) : List TypeExpr :=
  (schema.ownTypes.flatMap fun entry => entry.2.references) ++
    schema.ownDirectives.flatMap fun entry => entry.2.references

/-- The type expression stands at a place that is checked. -/
inductive Refers (schema : Schema) : TypeExpr → Prop
  | field {typeName fieldName : String} {definition : TypeDefinition} {field : FieldDefinition}
    (hget : schema.types.get? typeName = some definition) (hown : definition.isBuiltIn = false)
    (hfield : (fieldName, field) ∈ definition.body.fields) : Refers schema field.type
  | fieldArgument {typeName fieldName argumentName : String} {definition : TypeDefinition}
    {field : FieldDefinition} {argument : InputValueDefinition}
    (hget : schema.types.get? typeName = some definition) (hown : definition.isBuiltIn = false)
    (hfield : (fieldName, field) ∈ definition.body.fields)
    (hargument : (argumentName, argument) ∈ field.arguments) : Refers schema argument.type
  | directiveArgument {directiveName argumentName : String} {definition : DirectiveDefinition}
    {argument : InputValueDefinition}
    (hget : schema.directiveDefinitions.get? directiveName = some definition)
    (hown : directiveName ∉ DirectiveRecord.builtInNames)
    (hargument : (argumentName, argument) ∈ definition.arguments) : Refers schema argument.type

end Schema

theorem FieldDefinition.mem_references_iff {definition : FieldDefinition} {type : TypeExpr} :
    type ∈ definition.references ↔
      (∃ entry ∈ definition.arguments, entry.2.type = type) ∨ definition.type = type := by
  rw [references, List.mem_append, List.mem_map, List.mem_singleton, @eq_comm _ type]

namespace Schema

variable {schema : Schema}

theorem mem_ownTypes_iff {name : String} {definition : TypeDefinition} :
    (name, definition) ∈ schema.ownTypes ↔
      schema.types.get? name = some definition ∧ definition.isBuiltIn = false := by
  rw [ownTypes, List.mem_filter, Bool.not_eq_true']
  exact and_congr_left fun _ =>
    ⟨Entries.get?_eq_some_of_mem schema.types.nodup, Entries.mem_of_get?_eq_some⟩

theorem mem_ownDirectives_iff {name : String} {definition : DirectiveDefinition} :
    (name, definition) ∈ schema.ownDirectives ↔
      schema.directiveDefinitions.get? name = some definition ∧
        name ∉ DirectiveRecord.builtInNames := by
  rw [ownDirectives, List.mem_filter, decide_eq_true_eq]
  exact and_congr_left fun _ => ⟨Entries.get?_eq_some_of_mem schema.directiveDefinitions.nodup,
    Entries.mem_of_get?_eq_some⟩

theorem mem_references_iff (schema : Schema) (type : TypeExpr) :
    type ∈ schema.references ↔ schema.Refers type := by
  simp only [references, TypeDefinition.references, DirectiveDefinition.references, List.mem_append,
    List.mem_flatMap, FieldDefinition.mem_references_iff, List.mem_map, Prod.exists]
  constructor
  · rintro (⟨typeName, definition, hown, fieldName, field, hfield, hreference⟩ |
      ⟨directiveName, definition, hown, argumentName, argument, hargument, rfl⟩)
    · obtain ⟨hget, hown⟩ := mem_ownTypes_iff.1 hown
      rcases hreference with ⟨argumentName, argument, hargument, rfl⟩ | rfl
      · exact .fieldArgument hget hown hfield hargument
      · exact .field hget hown hfield
    · obtain ⟨hget, hown⟩ := mem_ownDirectives_iff.1 hown
      exact .directiveArgument hget hown hargument
  · rintro (⟨hget, hown, hfield⟩ | ⟨hget, hown, hfield, hargument⟩ | ⟨hget, hown, hargument⟩)
    · exact Or.inl ⟨_, _, mem_ownTypes_iff.2 ⟨hget, hown⟩, _, _, hfield, Or.inr rfl⟩
    · exact Or.inl ⟨_, _, mem_ownTypes_iff.2 ⟨hget, hown⟩, _, _, hfield,
        Or.inl ⟨_, _, hargument, rfl⟩⟩
    · exact Or.inr ⟨_, _, mem_ownDirectives_iff.2 ⟨hget, hown⟩, _, _, hargument, rfl⟩

end Schema

/-! ## First faults -/

section

variable [NumberReader] (catalog : Catalog)

theorem ArgumentRecord.faultOf_ofDefinitions (definitions : List (String × InputValueDefinition)) :
    faultOf (ofDefinitions catalog definitions) =
      (definitions.map fun entry => entry.2.type).findSome? fun type =>
        faultOf (catalog.classify type) := by
  rw [ofDefinitions, faultOf_mapM, List.findSome?_map]
  congr 1
  funext entry
  exact faultOf_bind_pure _ _

theorem FieldRecord.faultOf_ofDefinition (name : String) (definition : FieldDefinition) :
    faultOf (ofDefinition catalog name definition) =
      definition.references.findSome? fun type => faultOf (catalog.classify type) := by
  rw [FieldDefinition.references, List.findSome?_append, List.findSome?_singleton,
    ← ArgumentRecord.faultOf_ofDefinitions]
  exact faultOf_bind fun _ _ => faultOf_bind_pure _ _

theorem DefinitionRecord.faultOf_ofDefinition (name : String) (definition : TypeDefinition) :
    faultOf (ofDefinition catalog name definition) =
      definition.references.findSome? fun type => faultOf (catalog.classify type) := by
  rw [ofDefinition_eq, faultOf_map, faultOf_mapM, TypeDefinition.references, findSome?_flatMap]
  simp only [FieldRecord.faultOf_ofDefinition]

theorem DirectiveRecord.faultOf_ofDefinition (name : String) (definition : DirectiveDefinition) :
    faultOf (ofDefinition catalog name definition) =
      definition.references.findSome? fun type => faultOf (catalog.classify type) :=
  (faultOf_bind_pure _ _).trans (ArgumentRecord.faultOf_ofDefinitions catalog _)

end

namespace Schema

variable {schema : Schema}

theorem faultOf_normalize [NumberReader] (schema : Schema) :
    faultOf schema.normalize =
      schema.references.findSome? fun type => faultOf (schema.catalog.classify type) := by
  have htypes : faultOf schema.typeRecords =
      (schema.ownTypes.flatMap fun entry => entry.2.references).findSome? fun type =>
        faultOf (schema.catalog.classify type) := by
    rw [findSome?_flatMap]
    refine (faultOf_mapM _ _).trans ?_
    simp only [DefinitionRecord.faultOf_ofDefinition]
    rfl
  have hdirectives : faultOf schema.directiveRecords =
      (schema.ownDirectives.flatMap fun entry => entry.2.references).findSome? fun type =>
        faultOf (schema.catalog.classify type) := by
    rw [findSome?_flatMap, directiveRecords_eq]
    refine (faultOf_mapM _ _).trans ?_
    simp only [DirectiveRecord.faultOf_ofDefinition]
  rw [references, List.findSome?_append, ← htypes, ← hdirectives]
  exact faultOf_bind fun _ _ => faultOf_bind_pure _ _

theorem keys_catalog (schema : Schema) : schema.catalog.keys = schema.types.keys :=
  List.map_map ..

theorem faultOf_classify (schema : Schema) (type : TypeExpr) :
    faultOf (schema.catalog.classify type) =
      if type.innermost ∈ schema.types.keys then none
      else some (.undeclaredType type.innermost) := by
  rw [Catalog.faultOf_classify_eq_ite, keys_catalog]

theorem faultOf_classify_eq_some_iff (schema : Schema) (type : TypeExpr) (fault : Fault) :
    faultOf (schema.catalog.classify type) = some fault ↔
      type.innermost ∉ schema.types.keys ∧ fault = .undeclaredType type.innermost := by
  rw [faultOf_eq_some_iff, Catalog.classify_eq_error_iff, keys_catalog]

theorem faultOf_classify_eq_none_iff (schema : Schema) (type : TypeExpr) :
    faultOf (schema.catalog.classify type) = none ↔ type.innermost ∈ schema.types.keys := by
  rw [faultOf_eq_none_iff, Catalog.exists_classify_eq_ok_iff, keys_catalog]

end Schema

/-! ## What is not checked -/

/-- The definition without description, default value and directives. -/
def InputValueDefinition.bare (definition : InputValueDefinition) : InputValueDefinition :=
  ⟨none, definition.type, none, []⟩

/-- The definition without description and directives, also in its arguments. -/
def FieldDefinition.bare (definition : FieldDefinition) : FieldDefinition where
  description := none
  arguments := definition.arguments.map fun entry => (entry.1, entry.2.bare)
  type := definition.type
  directives := []

/-- The body without names of interfaces, members and values. -/
def TypeBody.bare : TypeBody → TypeBody
  | .object _ fields => .object ∅ (fields.map FieldDefinition.bare)
  | .scalar => .scalar
  | .interface _ fields => .interface ∅ (fields.map FieldDefinition.bare)
  | .union _ => .union ∅
  | .inputObject fields => .inputObject (fields.map InputValueDefinition.bare)
  | .enum _ => .enum ∅

/-- The definition without description and directives. Nothing is left of a built-in one. -/
def TypeDefinition.bare (definition : TypeDefinition) : TypeDefinition where
  description := none
  isBuiltIn := definition.isBuiltIn
  directives := []
  body := if definition.isBuiltIn then .scalar else definition.body.bare

/-- The definition without description, locations, and what its arguments have besides a type. -/
def DirectiveDefinition.bare (definition : DirectiveDefinition) : DirectiveDefinition where
  description := none
  arguments := definition.arguments.map fun entry => (entry.1, entry.2.bare)
  repeatable := false
  locations := []

theorem FieldDefinition.references_bare (definition : FieldDefinition) :
    definition.bare.references = definition.references := by
  rw [references, references, bare, List.map_map]
  rfl

theorem DirectiveDefinition.references_bare (definition : DirectiveDefinition) :
    definition.bare.references = definition.references := by
  rw [references, references, bare, List.map_map]
  rfl

theorem TypeBody.fields_bare (body : TypeBody) :
    body.bare.fields = body.fields.map fun entry => (entry.1, entry.2.bare) := by
  cases body with
  | object interfaces declared | interface interfaces declared => rfl
  | inputObject declared =>
    simp only [bare, TypeBody.fields, OrderedMap.map, List.map_map]
    rfl
  | scalar | union members | enum values => rfl

theorem TypeDefinition.references_bare {definition : TypeDefinition}
    (hown : definition.isBuiltIn = false) : definition.bare.references = definition.references := by
  have hbody : definition.bare.body = definition.body.bare := by
    simp only [bare, hown, Bool.false_eq_true, if_false]
  rw [references, references, hbody, TypeBody.fields_bare, List.flatMap_map]
  simp only [FieldDefinition.references_bare]

namespace Schema

theorem nodup_keys_ownDirectives (schema : Schema) : schema.ownDirectives.keys.Nodup :=
  schema.directiveDefinitions.nodup.sublist (List.filter_sublist.map Prod.fst)

/-- The schema with nothing but the names of types and the types of fields and arguments. The
contents of built-in definitions are left out as well. -/
def bare (schema : Schema) : Schema where
  directives := []
  types := schema.types.map TypeDefinition.bare
  directiveDefinitions :=
    OrderedMap.map DirectiveDefinition.bare ⟨schema.ownDirectives, schema.nodup_keys_ownDirectives⟩

theorem keys_types_bare (schema : Schema) : schema.bare.types.keys = schema.types.keys :=
  List.map_map ..

theorem ownTypes_bare (schema : Schema) :
    schema.bare.ownTypes = schema.ownTypes.map fun entry => (entry.1, entry.2.bare) :=
  List.filter_map ..

theorem ownDirectives_bare (schema : Schema) :
    schema.bare.ownDirectives = schema.ownDirectives.map fun entry => (entry.1, entry.2.bare) := by
  refine List.filter_eq_self.2 fun entry hentry => ?_
  obtain ⟨own, hown, rfl⟩ := List.mem_map.1 hentry
  exact (List.mem_filter.1 hown).2

theorem references_bare (schema : Schema) : schema.bare.references = schema.references := by
  have htypes : ∀ entry ∈ schema.ownTypes, entry.2.bare.references = entry.2.references :=
    fun entry hentry => TypeDefinition.references_bare (mem_ownTypes_iff.1 hentry).2
  rw [references, references, ownTypes_bare, ownDirectives_bare, List.flatMap_map,
    List.flatMap_map, List.flatMap_congr htypes]
  simp only [DirectiveDefinition.references_bare]

section

variable [NumberReader]

theorem faultOf_normalize_bare (schema : Schema) :
    faultOf schema.bare.normalize = faultOf schema.normalize := by
  rw [faultOf_normalize, faultOf_normalize, references_bare]
  simp only [faultOf_classify, keys_types_bare]

/-- A schema is refused for the first reference to an undeclared type, if any. -/
structure FailsAtFirstReference (schema : Schema) : Prop where
  accepted_iff : (∃ records, schema.normalize = .ok records) ↔
    ∀ type, schema.Refers type → type.innermost ∈ schema.types.keys
  refused_iff : ∀ fault, schema.normalize = .error fault ↔
    ∃ earlier type later, schema.references = earlier ++ type :: later ∧
      (type.innermost ∉ schema.types.keys ∧ fault = .undeclaredType type.innermost) ∧
      ∀ other ∈ earlier, other.innermost ∈ schema.types.keys
  mem_references_iff : ∀ type, type ∈ schema.references ↔ schema.Refers type
  /-- Schemas that differ in other places only are accepted alike, or refused for the same fault. -/
  unchecked : ∀ other : Schema, other.bare = schema.bare →
    faultOf other.normalize = faultOf schema.normalize

theorem failsAtFirstReference (schema : Schema) : FailsAtFirstReference schema where
  accepted_iff := by
    rw [← faultOf_eq_none_iff, faultOf_normalize, List.findSome?_eq_none_iff]
    simp only [faultOf_classify_eq_none_iff, mem_references_iff]
  refused_iff fault := by
    rw [← faultOf_eq_some_iff, faultOf_normalize, List.findSome?_eq_some_iff]
    simp only [faultOf_classify_eq_some_iff, faultOf_classify_eq_none_iff]
  mem_references_iff := schema.mem_references_iff
  unchecked other hbare := by
    rw [← faultOf_normalize_bare, hbare, faultOf_normalize_bare]

/-- No type but the object itself is declared. Its interface is not looked up, and the argument of
its field comes before the field. -/
example :
    let argument : InputValueDefinition := ⟨none, .named "In", none, []⟩
    let field : FieldDefinition := ⟨none, [("by", argument)], .nonNullNamed "Out", []⟩
    normalize
      ⟨[], .ofList [("Query", ⟨none, false, [],
        .object (.ofNames ["Node"]) (.ofList [("find", field)])⟩)], .empty⟩ =
      .error (.undeclaredType "In") := rfl

end

end Schema

end GraphQLIR
