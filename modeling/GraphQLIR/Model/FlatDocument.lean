import GraphQLIR.Model.Collect
/-!
# Flattened documents

A document in which every fragment and operation has one level of selections and a list of models.
-/

namespace GraphQLIR

structure FlatFragment where
  name : String
  onType : String
  text : String
  level : ModelLevel
  models : List Model
  hasModels : Bool
  directives : AppliedDirectives
deriving BEq

structure FlatOperation where
  name : Option String
  operationType : OperationType
  vars : List Variable
  hasVars : Bool
  text : String
  level : ModelLevel
  models : List Model
  hasModels : Bool
  directives : AppliedDirectives
deriving BEq

structure FlatDocument where
  fragments : List FlatFragment
  operations : List FlatOperation
  hasFragments : Bool
  hasOperations : Bool
deriving BEq

def Fragment.flatten (fragment : Fragment) : FlatFragment :=
  let flat := fragment.selections.flatten
  { name := fragment.name
    onType := fragment.onType
    text := fragment.text
    level := flat.1
    models := flat.2
    hasModels := !flat.2.isEmpty
    directives := fragment.directives }

def Operation.flatten (operation : Operation) : FlatOperation :=
  let flat := operation.selections.flatten
  { name := operation.name
    operationType := operation.operationType
    vars := operation.vars
    hasVars := operation.hasVars
    text := operation.text
    level := flat.1
    models := flat.2
    hasModels := !flat.2.isEmpty
    directives := operation.directives }

def Document.flatten (document : Document) : FlatDocument :=
  let fragments := document.fragments.map Fragment.flatten
  let operations := document.operations.map Operation.flatten
  { fragments
    operations
    hasFragments := !fragments.isEmpty
    hasOperations := !operations.isEmpty }

/-! ## JSON form -/

def modelMembers (models : List Model) (hasModels : Bool) : Entries Json :=
  [("innerModels", .ofList Model.toJson models), ("hasInnerModels", .bool hasModels)]

def FlatFragment.toJson (fragment : FlatFragment) : Json :=
  .obj ([("name", .str fragment.name), ("onType", .str fragment.onType),
    ("document", .str fragment.text)] ++ fragment.level.members ++
    modelMembers fragment.models fragment.hasModels ++ fragment.directives.members)

def FlatOperation.toJson (operation : FlatOperation) : Json :=
  .obj ([("name", .ofOption .str operation.name)] ++ operation.operationType.members ++
    variableMembers operation.vars operation.hasVars ++ [("document", .str operation.text)] ++
    operation.level.members ++ modelMembers operation.models operation.hasModels ++
    operation.directives.members)

def FlatDocument.toJson (document : FlatDocument) : Json :=
  .obj (documentMembers (.ofList FlatFragment.toJson document.fragments)
    (.ofList FlatOperation.toJson document.operations) document.hasFragments
    document.hasOperations)

end GraphQLIR
