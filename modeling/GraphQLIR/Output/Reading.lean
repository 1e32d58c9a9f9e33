import GraphQLIR.Output.Configuration
/-!
# Reading configuration

Reads configuration records from JSON. A record is an object, of which unknown members are ignored,
or a list of its fields in order. A field with a default may be missing, at the end in a list, but
a value that is there has to be of the right type: only optional texts may be null.
-/

namespace GraphQLIR

namespace Json

/-- The fields of a record with these keys. A list may leave out fields at its end. -/
def recordFields? (keys : List String) : Json → Option (Entries Json)
  | .obj members => some members
  | .arr items => if items.length ≤ keys.length then some (keys.zip items) else none
  | _ => none

def bool? : Json → Option Bool
  | .bool value => some value
  | _ => none

def string? : Json → Option String
  | .str value => some value
  | _ => none

/-- A text or null. -/
def optionalString? : Json → Option (Option String)
  | .null => some none
  | .str value => some (some value)
  | _ => none

def strings? : Json → Option (List String)
  | .arr items => items.mapM string?
  | _ => none

def object? : Json → Option (OrderedMap Json)
  | .obj members => some (.ofList members)
  | _ => none

end Json

namespace Entries

/-- A field that has to be there. -/
def required? {α : Type} (fields : Entries Json) (key : String) (read : Json → Option α) :
    Option α :=
  match get? fields key with
  | some value => read value
  | none => none

/-- A field that has a default. -/
def withDefault? {α : Type} (fields : Entries Json) (key : String) (default : α)
    (read : Json → Option α) : Option α :=
  match get? fields key with
  | some value => read value
  | none => some default

end Entries

/-- The name of the layout, or an object with the name as its only key and null as its value. -/
def FileLayout.ofJson? : Json → Option FileLayout
  | .str name => ofName? name
  | .obj [(name, .null)] => ofName? name
  | _ => none

def ScalarNames.ofJson? (json : Json) : Option ScalarNames := do
  let fields ← json.recordFields? ["String", "Int", "Float", "Boolean", "ID"]
  return {
    string := ← fields.required? "String" Json.string?
    int := ← fields.required? "Int" Json.string?
    float := ← fields.required? "Float" Json.string?
    boolean := ← fields.required? "Boolean" Json.string?
    id := ← fields.required? "ID" Json.string?
  }

def TemplateEntry.ofJson? : Json → Option TemplateEntry
  | .str template => some (.whole template)
  | json => json.strings?.map .partials

def TemplateSet.ofJson? : Json → Option TemplateSet
  | .str path => some (.location path)
  | .obj members => do
    let entries ← members.mapM fun (name, entry) => do
      return (name, ← TemplateEntry.ofJson? entry)
    return .named (.ofList entries)
  | _ => none

def Configuration.ofJson? (json : Json) : Option Configuration := do
  let fields ← json.recordFields?
    ["inputType", "flattenTypes", "config", "templates", "primitives", "outFile",
      "filesExtension"]
  return {
    layout := ← fields.required? "inputType" FileLayout.ofJson?
    flattens := ← fields.withDefault? "flattenTypes" false Json.bool?
    extra := ← fields.withDefault? "config" ∅ Json.object?
    templates := ← fields.required? "templates" TemplateSet.ofJson?
    scalarNames := ← fields.withDefault? "primitives" .standard ScalarNames.ofJson?
    outFile := ← fields.withDefault? "outFile" none Json.optionalString?
    fileExtension := ← fields.withDefault? "filesExtension" none Json.optionalString?
  }

def RunOptions.ofJson? (json : Json) : Option RunOptions := do
  let fields ← json.recordFields? ["generateSchema", "generateDocuments", "verbose"]
  return {
    schema := ← fields.withDefault? "generateSchema" true Json.bool?
    documents := ← fields.withDefault? "generateDocuments" true Json.bool?
    verbose := ← fields.withDefault? "verbose" false Json.bool?
  }

def OutputFile.ofJson? (json : Json) : Option OutputFile := do
  let fields ← json.recordFields? ["filename", "content"]
  return {
    name := ← fields.required? "filename" Json.string?
    content := ← fields.required? "content" Json.string?
  }

end GraphQLIR
