import GraphQLIR.Catalog
import GraphQLIR.AppliedDirectives
/-!
# Records of arguments, fields and enum values

A record is what a template sees of a definition: types are classified, directives indexed and
default values in JSON form.
-/

namespace GraphQLIR

structure ArgumentRecord where
  name : String
  description : Option String
  type : TypeRef
  default : Option Json
  directives : AppliedDirectives
deriving BEq

def namedMembers (name : String) (description : Option String) : Entries Json :=
  [("name", .str name), ("description", .ofOption .str description)]

def namedKeys : List String :=
  ["name", "description"]

namespace ArgumentRecord

section

variable [NumberReader]

def ofDefinition (catalog : Catalog) (name : String) (definition : InputValueDefinition) :
    Except Fault ArgumentRecord := do
  let type ← catalog.classify definition.type
  return {
    name
    description := definition.description
    type
    default := definition.default.map Value.toJson
    directives := .ofApplications definition.directives
  }

/-- The first fault among the arguments, or all their records. -/
def ofDefinitions (catalog : Catalog) (definitions : List (String × InputValueDefinition)) :
    Except Fault (List ArgumentRecord) :=
  definitions.mapM fun (name, definition) => ofDefinition catalog name definition

end

def toJson (record : ArgumentRecord) : Json :=
  .obj (namedMembers record.name record.description ++ record.type.members ++
    [("defaultValue", .ofOption id record.default)] ++ record.directives.members)

def keys : List String :=
  namedKeys ++ TypeRef.keys ++ ["defaultValue"] ++ AppliedDirectives.keys

end ArgumentRecord

/-- The arguments of a field or directive, and whether it has any. -/
def argumentMembers (arguments : List ArgumentRecord) (hasArguments : Bool) : Entries Json :=
  [("arguments", .ofList ArgumentRecord.toJson arguments), ("hasArguments", .bool hasArguments)]

def argumentKeys : List String :=
  ["arguments", "hasArguments"]

/-- A field of an object, interface or input object. -/
structure FieldRecord where
  name : String
  description : Option String
  /-- Always empty for fields of input objects. -/
  arguments : List ArgumentRecord
  hasArguments : Bool
  type : TypeRef
  directives : AppliedDirectives
deriving BEq

namespace FieldRecord

section

variable [NumberReader]

/-- The arguments are classified before the type of the field. -/
def ofDefinition (catalog : Catalog) (name : String) (definition : FieldDefinition) :
    Except Fault FieldRecord := do
  let arguments ← ArgumentRecord.ofDefinitions catalog definition.arguments
  let type ← catalog.classify definition.type
  return {
    name
    description := definition.description
    arguments
    hasArguments := !arguments.isEmpty
    type
    directives := .ofApplications definition.directives
  }

/-- The default value of a field of an input object is not kept. -/
def ofInputDefinition (catalog : Catalog) (name : String) (definition : InputValueDefinition) :
    Except Fault FieldRecord := do
  let type ← catalog.classify definition.type
  return {
    name
    description := definition.description
    arguments := []
    hasArguments := false
    type
    directives := .ofApplications definition.directives
  }

def ofDefinitions (catalog : Catalog) (definitions : OrderedMap FieldDefinition) :
    Except Fault (List FieldRecord) :=
  definitions.entries.mapM fun (name, definition) => ofDefinition catalog name definition

def ofInputDefinitions (catalog : Catalog) (definitions : OrderedMap InputValueDefinition) :
    Except Fault (List FieldRecord) :=
  definitions.entries.mapM fun (name, definition) => ofInputDefinition catalog name definition

end

def toJson (record : FieldRecord) : Json :=
  .obj (namedMembers record.name record.description ++
    argumentMembers record.arguments record.hasArguments ++ record.type.members ++
    record.directives.members)

def keys : List String :=
  namedKeys ++ argumentKeys ++ TypeRef.keys ++ AppliedDirectives.keys

end FieldRecord

structure EnumValueRecord where
  name : String
  description : Option String
  directives : AppliedDirectives
deriving BEq

namespace EnumValueRecord

def ofDefinition [NumberReader] (name : String) (definition : EnumValueDefinition) :
    EnumValueRecord where
  name := name
  description := definition.description
  directives := .ofApplications definition.directives

/-- In responses the value is written like its name. -/
def toJson (record : EnumValueRecord) : Json :=
  .obj ([("name", .str record.name), ("value", .str record.name),
    ("description", .ofOption .str record.description)] ++ record.directives.members)

def keys : List String :=
  ["name", "value", "description"] ++ AppliedDirectives.keys

end EnumValueRecord

end GraphQLIR
