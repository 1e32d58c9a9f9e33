import GraphQLIR.TypeSystem.Schema
/-!
# Built-in definitions

What every schema declares before its own definitions: the introspection types, the standard
scalars and four standard directives. Only their names and kinds matter, since built-in
definitions are never normalized, so they are given without fields, values and arguments.
-/

namespace GraphQLIR

namespace Schema

private def builtInType (body : TypeBody) : TypeDefinition :=
  ⟨none, true, [], body⟩

def builtInTypes : List (String × TypeDefinition) :=
  let object := builtInType (.object ∅ ∅)
  let enum := builtInType (.enum ∅)
  let scalar := builtInType .scalar
  [("__Schema", object), ("__Type", object), ("__TypeKind", enum), ("__Field", object),
    ("__InputValue", object), ("__EnumValue", object), ("__Directive", object),
    ("__DirectiveLocation", enum), ("Int", scalar), ("Float", scalar), ("String", scalar),
    ("Boolean", scalar), ("ID", scalar)]

def builtInDirectives : List (String × DirectiveDefinition) :=
  let directive : DirectiveDefinition := ⟨none, [], false, []⟩
  [("skip", directive), ("include", directive), ("deprecated", directive),
    ("specifiedBy", directive)]

/-- The schema with these definitions, with or without the built-in ones before them. A
definition of a built-in name takes the place of the built-in one. -/
def declare (builtIns : Bool) (directives : List DirectiveApplication)
    (types : List (String × TypeDefinition))
    (directiveDefinitions : List (String × DirectiveDefinition)) : Schema where
  directives := directives
  types := .ofList (if builtIns then builtInTypes ++ types else types)
  directiveDefinitions := .ofList
    (if builtIns then builtInDirectives ++ directiveDefinitions else directiveDefinitions)

end Schema

end GraphQLIR
