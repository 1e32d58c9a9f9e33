import GraphQLIR.Record.Member
/-!
# Records of type and directive definitions

One record type per kind of definition, except that objects and input objects share one. A type
definition becomes a record of the variant that belongs to its kind.
-/

namespace GraphQLIR

/-- An object or an input object. -/
structure ObjectRecord where
  name : String
  description : Option String
  fields : List FieldRecord
  hasFields : Bool
  isInput : Bool
  /-- Always empty for input objects. -/
  interfaces : List String
  hasInterfaces : Bool
  directives : AppliedDirectives
deriving BEq

structure InterfaceRecord where
  name : String
  description : Option String
  fields : List FieldRecord
  hasFields : Bool
  /-- The interfaces that this interface itself implements. -/
  interfaces : List String
  hasInterfaces : Bool
  directives : AppliedDirectives
deriving BEq

structure UnionRecord where
  name : String
  description : Option String
  members : List String
  directives : AppliedDirectives
deriving BEq

structure EnumRecord where
  name : String
  description : Option String
  values : List EnumValueRecord
  directives : AppliedDirectives
deriving BEq

structure ScalarRecord where
  name : String
  description : Option String
  directives : AppliedDirectives
deriving BEq

structure DirectiveRecord where
  name : String
  description : Option String
  locations : List DirectiveLocation
  arguments : List ArgumentRecord
  hasArguments : Bool
  repeatable : Bool
  on : DirectiveLocations
deriving BEq

def fieldMembers (fields : List FieldRecord) (hasFields : Bool) : Entries Json :=
  [("fields", .ofList FieldRecord.toJson fields), ("hasFields", .bool hasFields)]

def fieldKeys : List String :=
  ["fields", "hasFields"]

def interfaceMembers (interfaces : List String) (hasInterfaces : Bool) : Entries Json :=
  [("interfaces", .ofStrings interfaces), ("hasInterfaces", .bool hasInterfaces)]

def interfaceKeys : List String :=
  ["interfaces", "hasInterfaces"]

namespace ObjectRecord

def toJson (record : ObjectRecord) : Json :=
  .obj (namedMembers record.name record.description ++
    fieldMembers record.fields record.hasFields ++ [("isInputType", .bool record.isInput)] ++
    interfaceMembers record.interfaces record.hasInterfaces ++ record.directives.members)

def keys : List String :=
  namedKeys ++ fieldKeys ++ ["isInputType"] ++ interfaceKeys ++ AppliedDirectives.keys

end ObjectRecord

namespace InterfaceRecord

def toJson (record : InterfaceRecord) : Json :=
  .obj (namedMembers record.name record.description ++
    fieldMembers record.fields record.hasFields ++
    interfaceMembers record.interfaces record.hasInterfaces ++ record.directives.members)

def keys : List String :=
  namedKeys ++ fieldKeys ++ interfaceKeys ++ AppliedDirectives.keys

end InterfaceRecord

namespace UnionRecord

def toJson (record : UnionRecord) : Json :=
  .obj (namedMembers record.name record.description ++
    [("possibleTypes", .ofStrings record.members)] ++ record.directives.members)

def keys : List String :=
  namedKeys ++ ["possibleTypes"] ++ AppliedDirectives.keys

end UnionRecord

namespace EnumRecord

def toJson (record : EnumRecord) : Json :=
  .obj (namedMembers record.name record.description ++
    [("values", .ofList EnumValueRecord.toJson record.values)] ++ record.directives.members)

def keys : List String :=
  namedKeys ++ ["values"] ++ AppliedDirectives.keys

end EnumRecord

namespace ScalarRecord

def toJson (record : ScalarRecord) : Json :=
  .obj (namedMembers record.name record.description ++ record.directives.members)

def keys : List String :=
  namedKeys ++ AppliedDirectives.keys

end ScalarRecord

namespace DirectiveRecord

/-- The directives of the GraphQL specification. A schema that defines one of them itself does
not get a record for it. -/
def builtInNames : List String :=
  ["skip", "include", "deprecated", "specifiedBy", "oneOf"]

def isBuiltIn (name : String) : Bool :=
  builtInNames.contains name

def ofDefinition [NumberReader] (catalog : Catalog) (name : String)
    (definition : DirectiveDefinition) : Except Fault DirectiveRecord := do
  let arguments ← ArgumentRecord.ofDefinitions catalog definition.arguments
  return {
    name
    description := definition.description
    locations := definition.locations
    arguments
    hasArguments := !arguments.isEmpty
    repeatable := definition.repeatable
    on := .ofList definition.locations
  }

def locationMembers (locations : DirectiveLocations) : Entries Json :=
  DirectiveLocation.all.map fun location => (location.flag, .bool (locations.isOn location))

def locationKeys : List String :=
  DirectiveLocation.all.map DirectiveLocation.flag

def toJson (record : DirectiveRecord) : Json :=
  .obj (namedMembers record.name record.description ++
    [("locations", .ofStrings (record.locations.map DirectiveLocation.name))] ++
    argumentMembers record.arguments record.hasArguments ++
    [("repeatable", .bool record.repeatable)] ++ locationMembers record.on)

def keys : List String :=
  namedKeys ++ ["locations"] ++ argumentKeys ++ ["repeatable"] ++ locationKeys

end DirectiveRecord

/-- The record of a type definition of any kind. -/
inductive DefinitionRecord
  | object (record : ObjectRecord)
  | inputObject (record : ObjectRecord)
  | interface (record : InterfaceRecord)
  | union (record : UnionRecord)
  | enum (record : EnumRecord)
  | scalar (record : ScalarRecord)

namespace DefinitionRecord

section

variable [NumberReader]

/-- The record of a definition whose fields have these records. -/
def ofFields (name : String) (definition : TypeDefinition) (fields : List FieldRecord) :
    DefinitionRecord :=
  let description := definition.description
  let directives := AppliedDirectives.ofApplications definition.directives
  match definition.body with
  | .object interfaces _ =>
    .object {
      name
      description
      fields
      hasFields := !fields.isEmpty
      isInput := false
      interfaces := interfaces.names
      hasInterfaces := !interfaces.names.isEmpty
      directives
    }
  | .inputObject _ =>
    .inputObject {
      name
      description
      fields
      hasFields := !fields.isEmpty
      isInput := true
      interfaces := []
      hasInterfaces := false
      directives
    }
  | .interface interfaces _ =>
    .interface {
      name
      description
      fields
      hasFields := !fields.isEmpty
      interfaces := interfaces.names
      hasInterfaces := !interfaces.names.isEmpty
      directives
    }
  | .union members => .union ⟨name, description, members.names, directives⟩
  | .enum values =>
    let values := values.entries.map fun (name, value) => EnumValueRecord.ofDefinition name value
    .enum ⟨name, description, values, directives⟩
  | .scalar => .scalar ⟨name, description, directives⟩

/-- Only the types of fields and arguments are checked, in order. -/
def ofDefinition (catalog : Catalog) (name : String) (definition : TypeDefinition) :
    Except Fault DefinitionRecord := do
  let fields ← match definition.body with
    | .object _ fields => FieldRecord.ofDefinitions catalog fields
    | .inputObject fields => FieldRecord.ofInputDefinitions catalog fields
    | .interface _ fields => FieldRecord.ofDefinitions catalog fields
    | .union _ | .enum _ | .scalar => pure []
  return ofFields name definition fields

end

def name : DefinitionRecord → String
  | .object record => record.name
  | .inputObject record => record.name
  | .interface record => record.name
  | .union record => record.name
  | .enum record => record.name
  | .scalar record => record.name

def object? : DefinitionRecord → Option ObjectRecord
  | .object record => some record
  | _ => none

def inputObject? : DefinitionRecord → Option ObjectRecord
  | .inputObject record => some record
  | _ => none

def interface? : DefinitionRecord → Option InterfaceRecord
  | .interface record => some record
  | _ => none

def union? : DefinitionRecord → Option UnionRecord
  | .union record => some record
  | _ => none

def enum? : DefinitionRecord → Option EnumRecord
  | .enum record => some record
  | _ => none

def scalar? : DefinitionRecord → Option ScalarRecord
  | .scalar record => some record
  | _ => none

end DefinitionRecord

end GraphQLIR
