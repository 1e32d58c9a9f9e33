/-!
# Type expressions

The type of a field, argument or variable as written: a named type under list and non-null
wrappers.
-/

namespace GraphQLIR

inductive TypeExpr
  | named (name : String)
  | nonNullNamed (name : String)
  | list (item : TypeExpr)
  | nonNullList (item : TypeExpr)
deriving DecidableEq, Repr

namespace TypeExpr

/-- The name inside all wrappers. -/
def innermost : TypeExpr → String
  | .named name => name
  | .nonNullNamed name => name
  | .list item => item.innermost
  | .nonNullList item => item.innermost

def isNonNull : TypeExpr → Bool
  | .named _ | .list _ => false
  | .nonNullNamed _ | .nonNullList _ => true

def isList : TypeExpr → Bool
  | .named _ | .nonNullNamed _ => false
  | .list _ | .nonNullList _ => true

/-- Whether this is a list whose items may be null. -/
def hasNullableItems : TypeExpr → Bool
  | .named _ | .nonNullNamed _ => false
  | .list item | .nonNullList item => !item.isNonNull

/-- Lists stand in brackets, and a non-null type ends in an exclamation mark. -/
def text : TypeExpr → String
  | .named name => name
  | .nonNullNamed name => name ++ "!"
  | .list item => "[" ++ item.text ++ "]"
  | .nonNullList item => "[" ++ item.text ++ "]!"

end TypeExpr

end GraphQLIR
