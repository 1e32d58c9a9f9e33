import GraphQLIR.OrderedMap
import GraphQLIR.Number.Literal
/-!
# JSON values

Objects are entries in insertion order. `Json.same` is the equality of JSON values, in which the
order of object members does not matter, an integer differs from every double and the two zeros of
a double are equal.
-/

namespace GraphQLIR

inductive Json
  | null
  | bool (value : Bool)
  | num (value : Number)
  | str (value : String)
  | arr (items : List Json)
  | obj (members : List (String × Json))
deriving Inhabited, Repr

namespace Json

mutual

/-- Equality without the order of object members: of two objects with equally many members, each
member of the first is found in the second with the same value. -/
def same : Json → Json → Bool
  | .null, .null => true
  | .bool a, .bool b => a == b
  | .num a, .num b => a == b
  | .str a, .str b => a == b
  | .arr xs, .arr ys => sameItems xs ys
  | .obj xs, .obj ys => xs.length == ys.length && sameMembers xs ys
  | _, _ => false

def sameItems : List Json → List Json → Bool
  | [], [] => true
  | x :: xs, y :: ys => x.same y && sameItems xs ys
  | _, _ => false

/-- Every member on the left is found on the right with the same value. -/
def sameMembers : List (String × Json) → List (String × Json) → Bool
  | [], _ => true
  | (key, x) :: rest, ys =>
    (match Entries.get? ys key with
      | some y => x.same y
      | none => false) && sameMembers rest ys

end

instance : BEq Json := ⟨same⟩

/-- Null stands for an absent value. -/
def ofOption {α : Type} (encode : α → Json) : Option α → Json
  | none => .null
  | some value => encode value

def ofStrings (values : List String) : Json :=
  .arr (values.map .str)

def ofList {α : Type} (encode : α → Json) (values : List α) : Json :=
  .arr (values.map encode)

/-- The value of a member of an object, nothing for other values. -/
def member? : Json → String → Option Json
  | .obj members, key => Entries.get? members key
  | _, _ => none

end Json

end GraphQLIR
