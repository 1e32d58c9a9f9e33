import GraphQLIR.Selection.Written
import GraphQLIR.Text.Slice
/-!
# Executable documents as written

The fragments and operations of one document, with the place of each definition in the source text.
-/

namespace GraphQLIR

inductive OperationType
  | query
  | mutation
  | subscription
deriving DecidableEq, Repr

namespace OperationType

def name : OperationType → String
  | .query => "query"
  | .mutation => "mutation"
  | .subscription => "subscription"

end OperationType

/-- Where the text of a definition comes from: its byte offsets in the source, if they are known,
and its printed form, for a source that does not have these offsets. -/
structure TextOrigin where
  span : Option (Nat × Nat)
  printed : String
deriving Repr

namespace TextOrigin

/-- The slice of the source at the offsets, if there is one. -/
def slice? (origin : TextOrigin) (source : Option String) : Option String := do
  let source ← source
  let (start, stop) ← origin.span
  Text.slice? source start stop

/-- The slice of the source, or the printed form without one. -/
def text (origin : TextOrigin) (source : Option String) : String :=
  (origin.slice? source).getD origin.printed

end TextOrigin

structure FragmentDefinition where
  /-- The type condition. -/
  selectsFrom : String
  directives : List DirectiveApplication
  selections : WrittenSelections
  origin : TextOrigin

structure VariableDefinition where
  name : String
  type : TypeExpr
  default : Option Value

structure OperationDefinition where
  operationType : OperationType
  vars : List VariableDefinition
  /-- The root type. -/
  selectsFrom : String
  directives : List DirectiveApplication
  selections : WrittenSelections
  origin : TextOrigin

structure ExecutableDocument where
  source : Option String
  fragments : OrderedMap FragmentDefinition
  anonymous : Option OperationDefinition
  named : OrderedMap OperationDefinition

/-- All operations with their names, the anonymous one first. -/
def ExecutableDocument.operations (document : ExecutableDocument) :
    List (Option String × OperationDefinition) :=
  (document.anonymous.toList.map fun operation => (none, operation)) ++
    document.named.entries.map fun (name, operation) => (some name, operation)

end GraphQLIR
