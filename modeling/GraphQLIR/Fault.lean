/-!
# Faults

Why a schema or document cannot be normalized. A fault ends the run: no partial result is handed
on beside it.
-/

namespace GraphQLIR

/-- How a selected field and its type disagree. -/
inductive SelectionFault
  | unexpected
  | missing
deriving DecidableEq, Repr

namespace SelectionFault

def message : SelectionFault → String
  | .unexpected => "leaf types must not have a selection set"
  | .missing => "composite types must have a non-empty selection set"

end SelectionFault

inductive Fault
  /-- A type expression names a type that is not declared. -/
  | undeclaredType (name : String)
  /-- A field has a sub-selection although its type is a leaf, or has none although it is not. -/
  | selection (parentType field fieldType : String) (reason : SelectionFault)
  /-- A spread names a fragment that is not defined. -/
  | undefinedFragment (name : String)
deriving DecidableEq, Repr

namespace Fault

def message : Fault → String
  | .undeclaredType name => s!"type `{name}` does not resolve to exactly one declared type"
  | .selection parentType field fieldType reason =>
    s!"invalid selection of field `{parentType}.{field}` of type `{fieldType}`: {reason.message}"
  | .undefinedFragment name => s!"fragment `{name}` is spread but never defined"

end Fault

end GraphQLIR
