import GraphQLIR.TypeSystem.Schema
/-!
# Applied directives

The directives applied to one node, by name. A repeated directive keeps the place of its first
application and has the arguments of its last one.
-/

namespace GraphQLIR

/-- The arguments of each applied directive, by name and in JSON form. Both maps are compared
without order. -/
structure AppliedDirectives where
  arguments : OrderedMap (OrderedMap Json)
  usesDirectives : Bool
deriving BEq, Inhabited

namespace AppliedDirectives

section

variable [NumberReader]

def argumentsOf (application : DirectiveApplication) : OrderedMap Json :=
  .ofList (application.arguments.map fun (name, value) => (name, value.toJson))

def ofApplications (applications : List DirectiveApplication) : AppliedDirectives :=
  let arguments : OrderedMap (OrderedMap Json) :=
    .ofList (applications.map fun application => (application.name, argumentsOf application))
  ⟨arguments, !arguments.isEmpty⟩

end

def get? (applied : AppliedDirectives) (name : String) : Option (OrderedMap Json) :=
  applied.arguments.get? name

def has (applied : AppliedDirectives) (name : String) : Bool :=
  applied.arguments.contains name

def size (applied : AppliedDirectives) : Nat :=
  applied.arguments.size

def isEmpty (applied : AppliedDirectives) : Bool :=
  applied.arguments.isEmpty

/-- The names of the directives, in order. -/
def names (applied : AppliedDirectives) : List String :=
  applied.arguments.keys

def members (applied : AppliedDirectives) : Entries Json :=
  [("directives", .obj (applied.arguments.entries.map fun (name, arguments) =>
      (name, .obj arguments.entries))),
    ("usesDirectives", .bool applied.usesDirectives)]

def keys : List String :=
  ["directives", "usesDirectives"]

end AppliedDirectives

end GraphQLIR
