import GraphQLIR.Document.Written
import GraphQLIR.Selection.Normal
/-!
# Normalized documents

The fragments and operations of several executable documents in one document. A fragment that a
later definition of its name follows is dropped, so the definition that comes last counts and
stands at its own place. Operations are all kept.
-/

namespace GraphQLIR

namespace OperationType

def members (operationType : OperationType) : Entries Json :=
  [("operationType", .str operationType.name),
    ("isQuery", .bool (operationType == .query)),
    ("isMutation", .bool (operationType == .mutation)),
    ("isSubscription", .bool (operationType == .subscription))]

def keys : List String :=
  ["operationType", "isQuery", "isMutation", "isSubscription"]

end OperationType

structure Variable where
  name : String
  type : TypeRef
  default : Option Json
deriving BEq

structure Fragment where
  name : String
  onType : String
  selections : Selections
  /-- The text of the definition. -/
  text : String
  directives : AppliedDirectives
deriving BEq

structure Operation where
  /-- Absent for an anonymous operation. -/
  name : Option String
  operationType : OperationType
  vars : List Variable
  hasVars : Bool
  selections : Selections
  /-- The text of the definition. -/
  text : String
  directives : AppliedDirectives
deriving BEq

structure Document where
  fragments : List Fragment
  operations : List Operation
  hasFragments : Bool
  hasOperations : Bool
deriving BEq

/-! ## Normalization -/

section

variable [NumberReader]

def FragmentDefinition.normalize (catalog : Catalog) (source : Option String) (name : String)
    (definition : FragmentDefinition) : Except Fault Fragment := do
  let selections ← definition.selections.normalize catalog definition.selectsFrom
  return {
    name
    onType := definition.selectsFrom
    selections
    text := definition.origin.text source
    directives := .ofApplications definition.directives
  }

def VariableDefinition.normalize (catalog : Catalog) (definition : VariableDefinition) :
    Except Fault Variable := do
  let type ← catalog.classify definition.type
  return ⟨definition.name, type, definition.default.map Value.toJson⟩

/-- Variables come before selections. -/
def OperationDefinition.normalize (catalog : Catalog) (source : Option String)
    (name : Option String) (definition : OperationDefinition) : Except Fault Operation := do
  let vars ← definition.vars.mapM (·.normalize catalog)
  let selections ← definition.selections.normalize catalog definition.selectsFrom
  return {
    name
    operationType := definition.operationType
    vars
    hasVars := !vars.isEmpty
    selections
    text := definition.origin.text source
    directives := .ofApplications definition.directives
  }

end

/-- The fragments and operations of the documents that were read so far. -/
structure Definitions where
  fragments : List Fragment
  operations : List Operation

namespace Definitions

def empty : Definitions := ⟨[], []⟩

/-- A fragment takes the place of an earlier one of its name, but at the end. -/
def override (fragments : List Fragment) (fragment : Fragment) : List Fragment :=
  fragments.filter (fun earlier => earlier.name != fragment.name) ++ [fragment]

/-- Those of a later document, whose fragments override. -/
def merge (first second : Definitions) : Definitions where
  fragments := second.fragments.foldl override first.fragments
  operations := first.operations ++ second.operations

end Definitions

/-- All fragments come before all operations. -/
def ExecutableDocument.normalize [NumberReader] (catalog : Catalog)
    (document : ExecutableDocument) : Except Fault Definitions := do
  let fragments ← document.fragments.entries.mapM fun (name, definition) =>
    definition.normalize catalog document.source name
  let operations ← document.operations.mapM fun (name, definition) =>
    definition.normalize catalog document.source name
  return ⟨fragments, operations⟩

namespace Document

/-- The document without any definition. -/
def empty : Document := ⟨[], [], false, false⟩

/-- Whether there are fragments and operations is known only after all documents. -/
def ofDefinitions (definitions : Definitions) : Document where
  fragments := definitions.fragments
  operations := definitions.operations
  hasFragments := !definitions.fragments.isEmpty
  hasOperations := !definitions.operations.isEmpty

/-- Normalizes the documents one after the other and merges them in order. A fault counts also in
a fragment that a later one overrides. -/
def ofDocuments [NumberReader] (catalog : Catalog) (documents : List ExecutableDocument) :
    Except Fault Document := do
  let parts ← documents.mapM (·.normalize catalog)
  return ofDefinitions (parts.foldl Definitions.merge Definitions.empty)

/-! ## Lookup -/

/-- The first fragment of this name. -/
def fragment? (document : Document) (name : String) : Option Fragment :=
  document.fragments.find? fun fragment => fragment.name == name

/-- The first operation of this name, or the first anonymous one. -/
def operation? (document : Document) (name : Option String) : Option Operation :=
  document.operations.find? fun operation => operation.name == name

end Document

/-! ## JSON form -/

namespace Variable

def toJson (v : Variable) : Json :=
  .obj (("name", .str v.name) :: v.type.members ++ [("defaultValue", .ofOption id v.default)])

def keys : List String :=
  "name" :: TypeRef.keys ++ ["defaultValue"]

end Variable

/-- The variables of an operation, and whether it has any. -/
def variableMembers (vars : List Variable) (hasVars : Bool) : Entries Json :=
  [("variables", .ofList Variable.toJson vars), ("hasVariables", .bool hasVars)]

def variableKeys : List String :=
  ["variables", "hasVariables"]

namespace Fragment

def toJson (fragment : Fragment) : Json :=
  .obj ([("name", .str fragment.name), ("onType", .str fragment.onType)] ++
    fragment.selections.members ++ [("document", .str fragment.text)] ++
    fragment.directives.members)

def keys : List String :=
  ["name", "onType"] ++ Selections.keys ++ ["document"] ++ AppliedDirectives.keys

end Fragment

namespace Operation

def toJson (operation : Operation) : Json :=
  .obj ([("name", .ofOption .str operation.name)] ++ operation.operationType.members ++
    variableMembers operation.vars operation.hasVars ++ operation.selections.members ++
    [("document", .str operation.text)] ++ operation.directives.members)

def keys : List String :=
  ["name"] ++ OperationType.keys ++ variableKeys ++ Selections.keys ++ ["document"] ++
    AppliedDirectives.keys

end Operation

/-- The members of a document whose fragments and operations have these forms. -/
def documentMembers (fragments operations : Json) (hasFragments hasOperations : Bool) :
    Entries Json :=
  [("fragments", fragments), ("operations", operations), ("hasFragments", .bool hasFragments),
    ("hasOperations", .bool hasOperations)]

def documentKeys : List String :=
  ["fragments", "operations", "hasFragments", "hasOperations"]

def Document.toJson (document : Document) : Json :=
  .obj (documentMembers (.ofList Fragment.toJson document.fragments)
    (.ofList Operation.toJson document.operations) document.hasFragments document.hasOperations)

end GraphQLIR
