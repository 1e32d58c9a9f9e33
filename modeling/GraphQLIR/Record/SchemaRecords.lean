import GraphQLIR.Record.Definition
/-!
# Normalized schemas

A schema is normalized to one sequence of records per kind of definition, in declaration order.
Types marked as built-in and directives with a built-in name are left out.
-/

namespace GraphQLIR

structure SchemaRecords where
  objects : List ObjectRecord
  inputObjects : List ObjectRecord
  enums : List EnumRecord
  unions : List UnionRecord
  interfaces : List InterfaceRecord
  scalars : List ScalarRecord
  directiveRecords : List DirectiveRecord
  hasObjects : Bool
  hasInputObjects : Bool
  hasEnums : Bool
  hasUnions : Bool
  hasInterfaces : Bool
  hasScalars : Bool
  hasDirectiveRecords : Bool
  /-- The directives applied to the schema itself. -/
  directives : AppliedDirectives
deriving BEq

section

variable [NumberReader]

/-- The records of the types not marked as built-in. -/
def Schema.typeRecords (schema : Schema) : Except Fault (List DefinitionRecord) :=
  let declared := schema.types.entries.filter fun (_, definition) => !definition.isBuiltIn
  let catalog := schema.catalog
  declared.mapM fun (name, definition) => DefinitionRecord.ofDefinition catalog name definition

/-- The records of the directives without a built-in name. -/
def Schema.directiveRecords (schema : Schema) : Except Fault (List DirectiveRecord) :=
  let defined := schema.directiveDefinitions.entries.filter fun (name, _) =>
    !DirectiveRecord.isBuiltIn name
  let catalog := schema.catalog
  defined.mapM fun (name, definition) => DirectiveRecord.ofDefinition catalog name definition

/-- Normalizes every type, then every directive. Types refer to each other by name only, so one
pass does for recursive types as well. -/
def Schema.normalize (schema : Schema) : Except Fault SchemaRecords := do
  let records ← schema.typeRecords
  let directiveRecords ← schema.directiveRecords
  let objects := records.filterMap DefinitionRecord.object?
  let inputObjects := records.filterMap DefinitionRecord.inputObject?
  let enums := records.filterMap DefinitionRecord.enum?
  let unions := records.filterMap DefinitionRecord.union?
  let interfaces := records.filterMap DefinitionRecord.interface?
  let scalars := records.filterMap DefinitionRecord.scalar?
  return {
    objects
    inputObjects
    enums
    unions
    interfaces
    scalars
    directiveRecords
    hasObjects := !objects.isEmpty
    hasInputObjects := !inputObjects.isEmpty
    hasEnums := !enums.isEmpty
    hasUnions := !unions.isEmpty
    hasInterfaces := !interfaces.isEmpty
    hasScalars := !scalars.isEmpty
    hasDirectiveRecords := !directiveRecords.isEmpty
    directives := .ofApplications schema.directives
  }

end

namespace SchemaRecords

def object? (records : SchemaRecords) (name : String) : Option ObjectRecord :=
  records.objects.find? fun record => record.name == name

def inputObject? (records : SchemaRecords) (name : String) : Option ObjectRecord :=
  records.inputObjects.find? fun record => record.name == name

def interface? (records : SchemaRecords) (name : String) : Option InterfaceRecord :=
  records.interfaces.find? fun record => record.name == name

def union? (records : SchemaRecords) (name : String) : Option UnionRecord :=
  records.unions.find? fun record => record.name == name

def enum? (records : SchemaRecords) (name : String) : Option EnumRecord :=
  records.enums.find? fun record => record.name == name

def scalar? (records : SchemaRecords) (name : String) : Option ScalarRecord :=
  records.scalars.find? fun record => record.name == name

/-- The sequences, and whether they have any records. -/
def sequenceMembers (records : SchemaRecords) : Entries Json :=
  [("types", .ofList ObjectRecord.toJson records.objects),
    ("inputTypes", .ofList ObjectRecord.toJson records.inputObjects),
    ("enums", .ofList EnumRecord.toJson records.enums),
    ("unions", .ofList UnionRecord.toJson records.unions),
    ("interfaces", .ofList InterfaceRecord.toJson records.interfaces),
    ("scalars", .ofList ScalarRecord.toJson records.scalars),
    ("definedDirectives", .ofList DirectiveRecord.toJson records.directiveRecords),
    ("hasTypes", .bool records.hasObjects),
    ("hasInputTypes", .bool records.hasInputObjects),
    ("hasEnums", .bool records.hasEnums),
    ("hasUnions", .bool records.hasUnions),
    ("hasInterfaces", .bool records.hasInterfaces),
    ("hasScalars", .bool records.hasScalars),
    ("hasDefinedDirectives", .bool records.hasDirectiveRecords)]

def sequenceKeys : List String :=
  ["types", "inputTypes", "enums", "unions", "interfaces", "scalars", "definedDirectives",
    "hasTypes", "hasInputTypes", "hasEnums", "hasUnions", "hasInterfaces", "hasScalars",
    "hasDefinedDirectives"]

def toJson (records : SchemaRecords) : Json :=
  .obj (records.sequenceMembers ++ records.directives.members)

def keys : List String :=
  sequenceKeys ++ AppliedDirectives.keys

end SchemaRecords

end GraphQLIR
