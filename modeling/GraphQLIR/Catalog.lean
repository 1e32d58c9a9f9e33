import GraphQLIR.Fault
import GraphQLIR.TypeSystem.Schema
/-!
# Classified types

A type expression is classified by the kind of its innermost type, which is looked up in the
catalog of a schema, and by flags for its two outer layers of wrappers.
-/

namespace GraphQLIR

namespace TypeKind

/-- Values of scalars and enums are selected without a sub-selection. -/
def isLeaf : TypeKind → Bool
  | .scalar | .enum => true
  | .object | .interface | .union | .inputObject => false

/-- One flag per kind, of which exactly one is set. -/
def flags (kind : TypeKind) : Entries Json :=
  [("isType", .bool (kind == .object)), ("isScalar", .bool (kind == .scalar)),
    ("isInterface", .bool (kind == .interface)), ("isUnion", .bool (kind == .union)),
    ("isInputType", .bool (kind == .inputObject)), ("isEnum", .bool (kind == .enum))]

end TypeKind

/-- A classified type expression. -/
structure TypeRef where
  /-- The innermost type. -/
  name : String
  /-- The whole expression as text. -/
  raw : String
  kind : TypeKind
  /-- Whether the expression as a whole is non-null. -/
  isRequired : Bool
  isArray : Bool
  /-- Whether it is a list whose items may be null. -/
  isNullableArray : Bool
deriving DecidableEq, Repr

namespace TypeRef

def isLeaf (type : TypeRef) : Bool :=
  type.kind.isLeaf

def members (type : TypeRef) : Entries Json :=
  [("type", .str type.name), ("raw", .str type.raw)] ++ type.kind.flags ++
    [("isRequired", .bool type.isRequired), ("isArray", .bool type.isArray),
      ("isNullableArray", .bool type.isNullableArray)]

def keys : List String :=
  ["type", "raw", "isType", "isScalar", "isInterface", "isUnion", "isInputType", "isEnum",
    "isRequired", "isArray", "isNullableArray"]

def toJson (type : TypeRef) : Json :=
  .obj type.members

end TypeRef

/-- The kinds of the declared types. -/
abbrev Catalog := OrderedMap TypeKind

/-- All types of the schema, the built-in ones included. -/
def Schema.catalog (schema : Schema) : Catalog :=
  schema.types.map fun definition => definition.body.kind

namespace Catalog

def kind (catalog : Catalog) (name : String) : Except Fault TypeKind :=
  match catalog.get? name with
  | some kind => .ok kind
  | none => .error (.undeclaredType name)

def classify (catalog : Catalog) (type : TypeExpr) : Except Fault TypeRef := do
  let kind ← catalog.kind type.innermost
  return {
    name := type.innermost
    raw := type.text
    kind
    isRequired := type.isNonNull
    isArray := type.isList
    isNullableArray := type.hasNullableItems
  }

end Catalog

end GraphQLIR
