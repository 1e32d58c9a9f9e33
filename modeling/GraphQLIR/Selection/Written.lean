import GraphQLIR.Selection.Set
import GraphQLIR.TypeSystem.Schema
/-!
# Selections as written

The selections of an executable document after its names were resolved against a schema: a field
knows the type of its definition, and whatever has selections knows the type that they select from.
-/

namespace GraphQLIR

structure WrittenField where
  name : String
  aliasName : Option String
  /-- The type of the definition of the field. -/
  type : TypeExpr
  /-- The type that the selections of the field select from. -/
  selectsFrom : String
  directives : List DirectiveApplication
deriving Repr

structure WrittenSpread where
  fragmentName : String
  directives : List DirectiveApplication
deriving Repr

structure WrittenInline where
  /-- The type condition, or the enclosing type if there is none. -/
  selectsFrom : String
  hasCondition : Bool
  directives : List DirectiveApplication
deriving Repr

abbrev WrittenSelections := SelectionSet WrittenField WrittenSpread WrittenInline

end GraphQLIR
