import GraphQLIR.Document.Normal
/-!
# Resolving spreads

A spread refers to the fragment of its name. Verification checks that every spread of a document
has one. It does not follow spreads, so fragments may spread each other in a circle.
-/

namespace GraphQLIR

namespace Document

def resolve (document : Document) (spread : SpreadNode) : Except Fault Fragment :=
  match document.fragment? spread.fragmentName with
  | some fragment => .ok fragment
  | none => .error (.undefinedFragment spread.fragmentName)

/-- Resolves the spreads at every depth, in order. -/
def checkSelections (document : Document) : Selections → Except Fault Unit
  | .empty => return
  | .field _ selections rest => do
    checkSelections document selections
    checkSelections document rest
  | .spread spread rest => do
    let _ ← document.resolve spread
    checkSelections document rest
  | .inline _ selections rest => do
    checkSelections document selections
    checkSelections document rest

/-- Verifies all fragments, then all operations. -/
def checkSpreads (document : Document) : Except Fault Unit := do
  document.fragments.forM fun fragment => document.checkSelections fragment.selections
  document.operations.forM fun operation => document.checkSelections operation.selections

end Document

end GraphQLIR
