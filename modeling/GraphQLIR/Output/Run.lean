import GraphQLIR.Model.FlatDocument
import GraphQLIR.Output.Configuration
import GraphQLIR.Record.SchemaRecords
/-!
# Runs

A run normalizes a schema and its documents once and hands them to a backend: either templates, for
which the run returns all they need, or a file maker that returns files itself.
-/

namespace GraphQLIR

/-- The files of a file maker, at once or when they are asked for. -/
inductive Delivery
  | immediate (files : List OutputFile)
  | deferred (files : Thunk (Except String (List OutputFile)))

/-- Deferred files may still fail to come. -/
def Delivery.receive : Delivery → Except String (List OutputFile)
  | .immediate files => .ok files
  | .deferred files => files.get

/-- Makes files from normalized input, or fails with a text. -/
abbrev FileMaker := SchemaRecords → Document → RunOptions → Except String Delivery

inductive Backend
  | templates (configuration : Configuration)
  | custom (maker : FileMaker)

namespace Backend

def isCustom : Backend → Bool
  | .templates _ => false
  | .custom _ => true

def configuration? : Backend → Option Configuration
  | .templates configuration => some configuration
  | .custom _ => none

end Backend

/-- Documents as templates see them. -/
inductive RenderDocuments
  | nested (document : Document)
  | flat (document : FlatDocument)
deriving BEq

def RenderDocuments.toJson : RenderDocuments → Json
  | .nested document => document.toJson
  | .flat document => document.toJson

/-- All that templates need for one run. -/
structure RenderInput where
  schema : SchemaRecords
  documents : RenderDocuments
  scalarNames : ScalarNames
  extra : OrderedMap Json
  options : RunOptions
deriving BEq

def RenderInput.toJson (input : RenderInput) : Json :=
  .obj [("schema", input.schema.toJson),
    ("documents", input.documents.toJson),
    ("primitives", input.scalarNames.toJson),
    ("config", .obj input.extra.entries),
    ("settings", input.options.toJson)]

inductive RunResult
  | files (files : List OutputFile)
  | render (input : RenderInput)

inductive RunFault
  | input (fault : Fault)
  | maker (reason : String)
deriving DecidableEq, Repr

def RunFault.message : RunFault → String
  | .input fault => fault.message
  | .maker reason => s!"custom processing function failed: {reason}"

/-- The document of a run, empty if documents are not wanted. -/
def RunOptions.document [NumberReader] (options : RunOptions) (schema : Schema)
    (documents : List ExecutableDocument) : Except Fault Document :=
  if options.documents then Document.ofDocuments schema.catalog documents
  else .ok .empty

/-- What a configuration hands to its templates. -/
def Configuration.renderInput (configuration : Configuration) (schema : SchemaRecords)
    (document : Document) (options : RunOptions) : RenderInput where
  schema := schema
  documents := if configuration.flattens then .flat document.flatten else .nested document
  scalarNames := configuration.scalarNames
  extra := configuration.extra
  options := options

/-- Normalizes the schema, then the documents, and hands both to the backend. -/
def Backend.run [NumberReader] (backend : Backend) (schema : Schema)
    (documents : List ExecutableDocument) (options : RunOptions) :
    Except RunFault RunResult := do
  let records ← schema.normalize.mapError .input
  let document ← (options.document schema documents).mapError .input
  match backend with
  | .custom maker =>
    let files ← (maker records document options >>= Delivery.receive).mapError .maker
    return .files files
  | .templates configuration =>
    return .render (configuration.renderInput records document options)

end GraphQLIR
