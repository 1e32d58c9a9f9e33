import GraphQLIR.Selection.Normal
import GraphQLIR.Text.PascalCase
/-!
# Model names

The model of a selection is named after the field or inline fragment that has it. A name that is
taken gets the least number that makes it free.
-/

namespace GraphQLIR

/-- The response key in PascalCase, or the type if the key consists of underscores. -/
def FieldNode.modelName (node : FieldNode) : String :=
  let name := Text.pascalCase node.responseKey
  if name.isEmpty then Text.pascalCase node.type.name else name

def InlineNode.modelName (node : InlineNode) : String :=
  "On" ++ node.onType

namespace ModelName

def numbered (base : String) (number : Nat) : String :=
  s!"{base}_{number}"

/-- The base name if it is free, otherwise the first free one of `base_1`, `base_2` and so on.
As many numbers as there are names in use cannot all be taken beside the base name. -/
def fresh (used : List String) (base : String) : String :=
  if used.contains base then
    let free? := (List.range used.length).find? fun i => !used.contains (numbered base (i + 1))
    numbered base (free?.getD used.length + 1)
  else base

/-- Takes a name, which is in use from then on. -/
def take (used : List String) (base : String) : String × List String :=
  let name := fresh used base
  (name, used ++ [name])

/-! ## The search without a limit -/

/-- The name in hand and its number, 0 for the base name. -/
structure Attempt where
  number : Nat
  name : String

namespace Attempt

def first (base : String) : Attempt :=
  ⟨0, base⟩

/-- A name in use is followed by the one with the next number. -/
def next? (used : List String) (base : String) (attempt : Attempt) : Option Attempt :=
  if used.contains attempt.name then
    some ⟨attempt.number + 1, numbered base (attempt.number + 1)⟩
  else none

end Attempt

/-- The search goes on from an attempt for a number of rounds and ends with the last attempt. -/
inductive Ends (used : List String) (base : String) : Attempt → Nat → Attempt → Prop
  | free {attempt : Attempt} (hfree : attempt.next? used base = none) :
    Ends used base attempt 0 attempt
  | taken {attempt following last : Attempt} {rounds : Nat}
    (hnext : attempt.next? used base = some following)
    (hrest : Ends used base following rounds last) : Ends used base attempt (rounds + 1) last

end ModelName

end GraphQLIR
