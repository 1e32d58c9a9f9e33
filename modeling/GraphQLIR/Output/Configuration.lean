import GraphQLIR.Json.Basic
/-!
# Configuration of output

How output is configured, the options of one run and the files that come out, each with its JSON
form.
-/

namespace GraphQLIR

/-- How output is spread over files. -/
inductive FileLayout
  /-- Everything goes into one file. -/
  | singleFile
  /-- Every type, operation and fragment has a file of its own. -/
  | multipleFiles
  /-- The templates lay out a whole project. -/
  | project
deriving DecidableEq, Repr

namespace FileLayout

def name : FileLayout → String
  | .singleFile => "SINGLE_FILE"
  | .multipleFiles => "MULTIPLE_FILES"
  | .project => "PROJECT"

def ofName? (name : String) : Option FileLayout :=
  [singleFile, multipleFiles, project].find? fun layout => layout.name == name

end FileLayout

/-- What the standard scalars are called in the target language. -/
structure ScalarNames where
  string : String
  int : String
  float : String
  boolean : String
  id : String
deriving DecidableEq, Repr

namespace ScalarNames

def standard : ScalarNames := ⟨"string", "number", "number", "boolean", "string"⟩

/-- The name of a type in the target language, which is its own unless it is a standard scalar. -/
def targetName (names : ScalarNames) (typeName : String) : String :=
  match typeName with
  | "String" => names.string
  | "Int" => names.int
  | "Float" => names.float
  | "Boolean" => names.boolean
  | "ID" => names.id
  | other => other

def toJson (names : ScalarNames) : Json :=
  .obj [("String", .str names.string), ("Int", .str names.int), ("Float", .str names.float),
    ("Boolean", .str names.boolean), ("ID", .str names.id)]

end ScalarNames

/-- What stands under one name of a template set. -/
inductive TemplateEntry
  | whole (template : String)
  | partials (templates : List String)
deriving DecidableEq, Repr

def TemplateEntry.toJson : TemplateEntry → Json
  | .whole template => .str template
  | .partials templates => .ofStrings templates

inductive TemplateSet
  /-- A directory or package of templates. -/
  | location (path : String)
  | named (entries : OrderedMap TemplateEntry)
deriving BEq

def TemplateSet.toJson : TemplateSet → Json
  | .location path => .str path
  | .named entries => .obj (entries.map TemplateEntry.toJson).entries

structure Configuration where
  layout : FileLayout
  /-- Whether templates see documents flattened to models. -/
  flattens : Bool
  /-- Free-form values that templates see as they are. -/
  extra : OrderedMap Json
  templates : TemplateSet
  scalarNames : ScalarNames
  outFile : Option String
  fileExtension : Option String
deriving BEq

def Configuration.toJson (configuration : Configuration) : Json :=
  .obj [("inputType", .str configuration.layout.name),
    ("flattenTypes", .bool configuration.flattens),
    ("config", .obj configuration.extra.entries),
    ("templates", configuration.templates.toJson),
    ("primitives", configuration.scalarNames.toJson),
    ("outFile", .ofOption .str configuration.outFile),
    ("filesExtension", .ofOption .str configuration.fileExtension)]

/-- What a run is to put out. The schema is normalized in any case, since the types of documents
are looked up in it; `schema` only says whether output for it is wanted. -/
structure RunOptions where
  schema : Bool
  documents : Bool
  verbose : Bool
deriving DecidableEq, Repr

namespace RunOptions

def standard : RunOptions := ⟨true, true, false⟩

def toJson (options : RunOptions) : Json :=
  .obj [("generateSchema", .bool options.schema), ("generateDocuments", .bool options.documents),
    ("verbose", .bool options.verbose)]

end RunOptions

structure OutputFile where
  name : String
  content : String
deriving DecidableEq, Repr

def OutputFile.toJson (file : OutputFile) : Json :=
  .obj [("filename", .str file.name), ("content", .str file.content)]

end GraphQLIR
