import GraphQLIR.Document.Normal
import GraphQLIR.Model.Name
/-!
# Models of nested selections

Nested selections are taken apart into one model per selection set, so that a language without
nested anonymous types can declare one type per model. Every non-leaf field and every inline
fragment refers to the model of its selections by name. Models are listed in pre-order, each ahead
of those nested in it.
-/

namespace GraphQLIR

structure ModelField where
  name : String
  aliasName : Option String
  type : TypeRef
  isLeaf : Bool
  /-- The model of the selections of this field, absent for leaf fields. -/
  modelName : Option String
  directives : AppliedDirectives
deriving BEq

structure ModelInline where
  onType : String
  modelName : String
  directives : AppliedDirectives
deriving BEq

/-- One level of a selection set, by kind of item. -/
structure ModelLevel where
  fields : List ModelField
  spreads : List SpreadNode
  inlines : List ModelInline
  hasFields : Bool
  hasSpreads : Bool
  hasInlines : Bool
deriving BEq

structure Model where
  name : String
  /-- The type that the selections select from. -/
  baseType : String
  level : ModelLevel
deriving BEq

namespace FieldNode

def toModelField (node : FieldNode) (modelName : Option String) : ModelField :=
  ⟨node.name, node.aliasName, node.type, node.isLeaf, modelName, node.directives⟩

end FieldNode

namespace InlineNode

def toModelInline (node : InlineNode) (modelName : String) : ModelInline :=
  ⟨node.onType, modelName, node.directives⟩

end InlineNode

namespace ModelLevel

def empty : ModelLevel := ⟨[], [], [], false, false, false⟩

def addField (level : ModelLevel) (field : ModelField) : ModelLevel :=
  { level with fields := field :: level.fields }

def addSpread (level : ModelLevel) (spread : SpreadNode) : ModelLevel :=
  { level with spreads := spread :: level.spreads }

def addInline (level : ModelLevel) (inline : ModelInline) : ModelLevel :=
  { level with inlines := inline :: level.inlines }

/-- Sets the flags of a level that has all its items. -/
def setFlags (level : ModelLevel) : ModelLevel :=
  { level with
    hasFields := !level.fields.isEmpty
    hasSpreads := !level.spreads.isEmpty
    hasInlines := !level.inlines.isEmpty }

end ModelLevel

/-- The top level of the selections, with its flags still to be set, and the models of everything
below it, given the names in use. Selections of leaf fields are passed over. -/
def Selections.collect (used : List String) : Selections → ModelLevel × List Model
  | .empty => (.empty, [])
  | .field node selections rest =>
    if node.isLeaf then
      let later := collect used rest
      (later.1.addField (node.toModelField none), later.2)
    else
      let taken := ModelName.take used node.modelName
      let below := collect taken.2 selections
      let models := ⟨taken.1, node.type.name, below.1.setFlags⟩ :: below.2
      let later := collect (used ++ models.map Model.name) rest
      (later.1.addField (node.toModelField (some taken.1)), models ++ later.2)
  | .spread node rest =>
    let later := collect used rest
    (later.1.addSpread node, later.2)
  | .inline node selections rest =>
    let taken := ModelName.take used node.modelName
    let below := collect taken.2 selections
    let models := ⟨taken.1, node.onType, below.1.setFlags⟩ :: below.2
    let later := collect (used ++ models.map Model.name) rest
    (later.1.addInline (node.toModelInline taken.1), models ++ later.2)

/-- The selections of a fragment or operation, whose model names are its own. -/
def Selections.flatten (selections : Selections) : ModelLevel × List Model :=
  let collected := selections.collect []
  (collected.1.setFlags, collected.2)

/-! ## JSON form -/

def ModelField.toJson (field : ModelField) : Json :=
  .obj ([("name", .str field.name), ("alias", .ofOption .str field.aliasName)] ++
    field.type.members ++ [("isLeaf", .bool field.isLeaf),
      ("modelType", .ofOption .str field.modelName)] ++ field.directives.members)

def ModelInline.toJson (inline : ModelInline) : Json :=
  .obj ([("onType", .str inline.onType), ("modelType", .str inline.modelName)] ++
    inline.directives.members)

def ModelLevel.members (level : ModelLevel) : Entries Json :=
  kindMembers (.ofList ModelField.toJson level.fields)
    (.ofList (fun spread => .obj spread.members) level.spreads)
    (.ofList ModelInline.toJson level.inlines) level.hasFields level.hasSpreads level.hasInlines

def Model.toJson (model : Model) : Json :=
  .obj ([("modelType", .str model.name), ("schemaBaseType", .str model.baseType)] ++
    model.level.members)

end GraphQLIR
