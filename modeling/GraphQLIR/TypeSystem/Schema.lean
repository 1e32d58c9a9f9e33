import GraphQLIR.TypeSystem.DirectiveLocation
import GraphQLIR.TypeSystem.TypeExpr
import GraphQLIR.TypeSystem.Value
/-!
# Schemas

Type and directive definitions by name, in declaration order. A definition does not hold its own
name: the map that declares it does.
-/

namespace GraphQLIR

structure DirectiveApplication where
  name : String
  arguments : List (String × Value)
deriving Inhabited, Repr

/-- An argument, or a field of an input object. -/
structure InputValueDefinition where
  description : Option String
  type : TypeExpr
  default : Option Value
  directives : List DirectiveApplication
deriving Repr

structure FieldDefinition where
  description : Option String
  arguments : List (String × InputValueDefinition)
  type : TypeExpr
  directives : List DirectiveApplication
deriving Repr

structure EnumValueDefinition where
  description : Option String
  directives : List DirectiveApplication
deriving Repr

inductive TypeKind
  | object
  | scalar
  | interface
  | union
  | inputObject
  | enum
deriving DecidableEq, Repr

/-- What the definition of a type of each kind declares. -/
inductive TypeBody
  | object (interfaces : NameSet) (fields : OrderedMap FieldDefinition)
  | scalar
  | interface (interfaces : NameSet) (fields : OrderedMap FieldDefinition)
  | union (members : NameSet)
  | inputObject (fields : OrderedMap InputValueDefinition)
  | enum (values : OrderedMap EnumValueDefinition)

def TypeBody.kind : TypeBody → TypeKind
  | .object _ _ => .object
  | .scalar => .scalar
  | .interface _ _ => .interface
  | .union _ => .union
  | .inputObject _ => .inputObject
  | .enum _ => .enum

/-- A type definition. The mark of a built-in type belongs to the definition and not to its
name: a schema may define a type of that name itself. -/
structure TypeDefinition where
  description : Option String
  isBuiltIn : Bool
  directives : List DirectiveApplication
  body : TypeBody

structure DirectiveDefinition where
  description : Option String
  arguments : List (String × InputValueDefinition)
  repeatable : Bool
  locations : List DirectiveLocation

structure Schema where
  /-- The directives applied to the schema itself. -/
  directives : List DirectiveApplication
  types : OrderedMap TypeDefinition
  directiveDefinitions : OrderedMap DirectiveDefinition

end GraphQLIR
