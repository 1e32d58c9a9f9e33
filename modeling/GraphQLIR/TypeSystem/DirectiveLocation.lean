/-!
# Directive locations

The places of a document or schema at which a directive may be applied.
-/

namespace GraphQLIR

inductive DirectiveLocation
  | query
  | mutation
  | subscription
  | field
  | fragmentDefinition
  | fragmentSpread
  | inlineFragment
  | variableDefinition
  | schema
  | scalar
  | object
  | fieldDefinition
  | argumentDefinition
  | interface
  | union
  | enum
  | enumValue
  | inputObject
  | inputFieldDefinition
deriving DecidableEq, Repr

namespace DirectiveLocation

def all : List DirectiveLocation :=
  [.query, .mutation, .subscription, .field, .fragmentDefinition, .fragmentSpread,
    .inlineFragment, .variableDefinition, .schema, .scalar, .object, .fieldDefinition,
    .argumentDefinition, .interface, .union, .enum, .enumValue, .inputObject,
    .inputFieldDefinition]

/-- The name in GraphQL text. -/
def name : DirectiveLocation → String
  | .query => "QUERY"
  | .mutation => "MUTATION"
  | .subscription => "SUBSCRIPTION"
  | .field => "FIELD"
  | .fragmentDefinition => "FRAGMENT_DEFINITION"
  | .fragmentSpread => "FRAGMENT_SPREAD"
  | .inlineFragment => "INLINE_FRAGMENT"
  | .variableDefinition => "VARIABLE_DEFINITION"
  | .schema => "SCHEMA"
  | .scalar => "SCALAR"
  | .object => "OBJECT"
  | .fieldDefinition => "FIELD_DEFINITION"
  | .argumentDefinition => "ARGUMENT_DEFINITION"
  | .interface => "INTERFACE"
  | .union => "UNION"
  | .enum => "ENUM"
  | .enumValue => "ENUM_VALUE"
  | .inputObject => "INPUT_OBJECT"
  | .inputFieldDefinition => "INPUT_FIELD_DEFINITION"

def ofName? (name : String) : Option DirectiveLocation :=
  all.find? fun location => location.name == name

/-- The key of the flag that templates test. -/
def flag : DirectiveLocation → String
  | .query => "onQuery"
  | .mutation => "onMutation"
  | .subscription => "onSubscription"
  | .field => "onField"
  | .fragmentDefinition => "onFragment"
  | .fragmentSpread => "onFragmentSpread"
  | .inlineFragment => "onInlineFragment"
  | .variableDefinition => "onVariableDefinition"
  | .schema => "onSchema"
  | .scalar => "onScalar"
  | .object => "onObject"
  | .fieldDefinition => "onFieldDefinition"
  | .argumentDefinition => "onArgument"
  | .interface => "onInterface"
  | .union => "onUnion"
  | .enum => "onEnum"
  | .enumValue => "onEnumValue"
  | .inputObject => "onInputObject"
  | .inputFieldDefinition => "onInputField"

end DirectiveLocation

/-- One flag per location. -/
structure DirectiveLocations where
  isOn : DirectiveLocation → Bool

namespace DirectiveLocations

instance : BEq DirectiveLocations :=
  ⟨fun a b => DirectiveLocation.all.all fun location => a.isOn location == b.isOn location⟩

/-- The flags of the locations in the list are set. -/
def ofList (locations : List DirectiveLocation) : DirectiveLocations where
  isOn location := locations.contains location

end DirectiveLocations

end GraphQLIR
