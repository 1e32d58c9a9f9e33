import GraphQLIR.Json.Basic
import GraphQLIR.Number.Reader
/-!
# Constant values and their JSON form

Values of arguments and defaults. In JSON, an enum value is a string, a variable a string that
starts with a dollar sign, and a number that JSON cannot hold is its literal text.
-/

namespace GraphQLIR

inductive Value
  | null
  | boolean (value : Bool)
  | enum (name : String)
  | variable (name : String)
  | string (value : String)
  | int (literal : String)
  | float (literal : String)
  | list (items : List Value)
  | object (fields : List (String × Value))
deriving Inhabited, Repr

namespace Value

/-- A signed integer is tried before an unsigned one. -/
def intToJson (literal : String) : Json :=
  match Number.signed? literal.toList with
  | some value => .num (.int value)
  | none =>
    match Number.unsigned? literal.toList with
    | some value => .num (.int value)
    | none => .str literal

section

variable [NumberReader]

/-- A number is only read from a text that denotes a finite double, and may still be an integer. -/
def floatToJson (literal : String) : Json :=
  match Binary64.ofText? literal.toList with
  | none => .str literal
  | some _ =>
    match NumberReader.read? literal with
    | some number => .num number
    | none => .str literal

mutual

/-- The value as templates see it. Of a repeated object field the last value counts, at the place
of the first. -/
def toJson : Value → Json
  | .null => .null
  | .boolean value => .bool value
  | .enum name => .str name
  | .variable name => .str ("$" ++ name)
  | .string value => .str value
  | .int literal => intToJson literal
  | .float literal => floatToJson literal
  | .list items => .arr (itemsToJson items)
  | .object fields => .obj (Entries.ofList (fieldsToJson fields))

def itemsToJson : List Value → List Json
  | [] => []
  | item :: rest => item.toJson :: itemsToJson rest

def fieldsToJson : List (String × Value) → List (String × Json)
  | [] => []
  | (name, value) :: rest => (name, value.toJson) :: fieldsToJson rest

end

end

end Value

end GraphQLIR
