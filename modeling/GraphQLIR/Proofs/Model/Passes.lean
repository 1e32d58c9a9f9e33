import GraphQLIR.Proofs.Model.Forest
import GraphQLIR.Proofs.Model.Listing
/-!
# Flattening in passes

Models are collected and named in one go, each name being chosen before the selections below it are
visited. The same comes out of separate passes: list the items that have a model, take names for
them from left to right, write the names into the tree, and read the models off it.
-/

namespace GraphQLIR

/-! ## Listing -/

/-- What refers to the model of an item if the base name of the model is free. -/
def Selection.baseReference? : Selection → Option ModelReference
  | .field node _ => some ⟨node.modelName, node.type.name⟩
  | .spread _ => none
  | .inline node _ => some ⟨node.modelName, node.onType⟩

namespace Selections

/-- The base names and types of the models, in the order of the items that have them. -/
def baseReferences (selections : Selections) : List ModelReference :=
  selections.modelled.filterMap Selection.baseReference?

theorem baseReferences_leaf {node : FieldNode} (hleaf : node.isLeaf = true)
    (selections rest : Selections) :
    baseReferences (.field node selections rest) = baseReferences rest := by
  rw [baseReferences, modelled, if_pos hleaf, baseReferences]

theorem baseReferences_field {node : FieldNode} (hleaf : ¬ node.isLeaf = true)
    (selections rest : Selections) :
    baseReferences (.field node selections rest) = ⟨node.modelName, node.type.name⟩ ::
      (baseReferences selections ++ baseReferences rest) := by
  rw [baseReferences, modelled, if_neg hleaf, List.filterMap_cons, List.filterMap_append]
  rfl

theorem baseReferences_inline (node : InlineNode) (selections rest : Selections) :
    baseReferences (.inline node selections rest) = ⟨node.modelName, node.onType⟩ ::
      (baseReferences selections ++ baseReferences rest) := by
  rw [baseReferences, modelled, List.filterMap_cons, List.filterMap_append]
  rfl

theorem map_baseType_of_isOf {items : List Selection} {models : List Model}
    (h : List.Forall₂ (fun item model => Model.IsOf model item) items models) :
    models.map Model.baseType =
      (items.filterMap Selection.baseReference?).map ModelReference.baseType := by
  induction h with
  | nil => rfl
  | cons hitem _ ih =>
    cases hitem with
    | field hbase _ =>
      rw [List.map_cons, ih, hbase]
      rfl
    | inline hbase _ =>
      rw [List.map_cons, ih, hbase]
      rfl

theorem map_baseType_collect (used : List String) (selections : Selections) :
    (selections.collect used).2.map Model.baseType =
      selections.baseReferences.map ModelReference.baseType :=
  map_baseType_of_isOf (forall₂_isOf_collect used selections)

theorem takenInTurn_collect (used : List String) (selections : Selections) :
    ModelName.TakenInTurn used (selections.baseReferences.map ModelReference.modelName)
      ((selections.collect used).2.map Model.name) := by
  fun_induction collect used selections with
  | case1 used => exact .nil
  | case2 used node selections rest hleaf later ih =>
    rw [baseReferences_leaf hleaf]
    exact ih
  | case3 used node selections rest hleaf taken below models later ihbelow ihlater =>
    rw [baseReferences_field hleaf, List.map_cons, List.map_append, List.map_append]
    exact .nest (ModelName.isFirstFree_fresh used _) ihbelow ihlater
  | case4 used node rest later ih => exact ih
  | case5 used node selections rest taken below models later ihbelow ihlater =>
    rw [baseReferences_inline, List.map_cons, List.map_append, List.map_append]
    exact .nest (ModelName.isFirstFree_fresh used _) ihbelow ihlater

end Selections

/-! ## Handing out names -/

/-- Selections in which every item with a model knows the name of it. -/
abbrev NamedSelections := SelectionSet ModelField SpreadNode ModelInline

/-- Writes names to the items with a model, in the order of their listing: the first name goes to
the first item, the next ones to those below it, and the others to those after it. -/
def Selections.named (names : List String) : Selections → NamedSelections
  | .empty => .empty
  | .field node selections rest =>
    if node.isLeaf then .field (node.toModelField none) .empty (named names rest)
    else
      .field (node.toModelField names.head?) (named names.tail selections)
        (named (names.drop ((modelled selections).length + 1)) rest)
  | .spread node rest => .spread node (named names rest)
  | .inline node selections rest =>
    .inline (node.toModelInline (names.headD "")) (named names.tail selections)
      (named (names.drop ((modelled selections).length + 1)) rest)

namespace NamedSelections

/-- The items of the top level by kind. -/
def level (named : NamedSelections) : ModelLevel :=
  ModelLevel.setFlags { ModelLevel.empty with
    fields := named.fieldNodes
    spreads := named.spreadNodes
    inlines := named.inlineNodes }

/-- One model for each item with a name, ahead of those of the items below it. -/
def models : NamedSelections → List Model
  | .empty => []
  | .field field selections rest =>
    match field.modelName with
    | none => models rest
    | some name =>
      ⟨name, field.type.name, level selections⟩ :: (models selections ++ models rest)
  | .spread _ rest => models rest
  | .inline inline selections rest =>
    ⟨inline.modelName, inline.onType, level selections⟩ :: (models selections ++ models rest)

/-- A level and models are those of the selections with names. -/
structure Yields (named : NamedSelections) (flat : ModelLevel × List Model) : Prop where
  level : named.level = flat.1
  models : named.models = flat.2

namespace Yields

variable {below rest : NamedSelections} {belowFlat restFlat : ModelLevel × List Model}

theorem field (node : FieldNode) (name : String)
    (hbelow : below.Yields (belowFlat.1.setFlags, belowFlat.2))
    (hrest : rest.Yields (restFlat.1.setFlags, restFlat.2)) :
    Yields (.field (node.toModelField (some name)) below rest)
      ((restFlat.1.addField (node.toModelField (some name))).setFlags,
        ⟨name, node.type.name, belowFlat.1.setFlags⟩ :: belowFlat.2 ++ restFlat.2) where
  level :=
    congrArg (fun level => (level.addField (node.toModelField (some name))).setFlags) hrest.level
  models := by
    change ⟨name, node.type.name, below.level⟩ :: (below.models ++ rest.models) = _
    rw [hbelow.level, hbelow.models, hrest.models]
    rfl

theorem inline (node : InlineNode) (name : String)
    (hbelow : below.Yields (belowFlat.1.setFlags, belowFlat.2))
    (hrest : rest.Yields (restFlat.1.setFlags, restFlat.2)) :
    Yields (.inline (node.toModelInline name) below rest)
      ((restFlat.1.addInline (node.toModelInline name)).setFlags,
        ⟨name, node.onType, belowFlat.1.setFlags⟩ :: belowFlat.2 ++ restFlat.2) where
  level :=
    congrArg (fun level => (level.addInline (node.toModelInline name)).setFlags) hrest.level
  models := by
    change ⟨name, node.onType, below.level⟩ :: (below.models ++ rest.models) = _
    rw [hbelow.level, hbelow.models, hrest.models]
    rfl

end Yields

end NamedSelections

namespace Selections

end Selections

/-! ## Both ways agree -/

end GraphQLIR
