import GraphQLIR.Model.Collect
import GraphQLIR.Proofs.Selection.Listing
import Mathlib.Data.List.Forall2
/-!
# What the models list

Every field of other than a leaf type and every inline fragment has one model, in the order in
which these items come. A level of models lists the items of one selection set by kind.
-/

namespace GraphQLIR

/-- The field without the name of its model. -/
def ModelField.node (field : ModelField) : FieldNode :=
  ⟨field.name, field.aliasName, field.type, field.directives⟩

/-- The inline fragment without the name of its model. -/
def ModelInline.node (inline : ModelInline) : InlineNode :=
  ⟨inline.onType, inline.directives⟩

/-- A level has the items of a selection set, kind by kind and in order. -/
structure ModelLevel.Lists (level : ModelLevel) (selections : Selections) : Prop where
  fields : level.fields.map ModelField.node = selections.fieldNodes
  spreads : level.spreads = selections.spreadNodes
  inlines : level.inlines.map ModelInline.node = selections.inlineNodes

theorem ModelLevel.Lists.setFlags {level : ModelLevel} {selections : Selections}
    (h : level.Lists selections) : level.setFlags.Lists selections :=
  ⟨h.fields, h.spreads, h.inlines⟩

/-- The model stands for the selections of this item. -/
inductive Model.IsOf (model : Model) : Selection → Prop
  | field {node : FieldNode} {selections : Selections} (baseType : model.baseType = node.type.name)
    (level : model.level.Lists selections) : IsOf model (.field node selections)
  | inline {node : InlineNode} {selections : Selections} (baseType : model.baseType = node.onType)
    (level : model.level.Lists selections) : IsOf model (.inline node selections)

namespace Selections

/-- The items that have a model, each followed by those below it. -/
def modelled : Selections → List Selection
  | .empty => []
  | .field node selections rest =>
    if node.isLeaf then modelled rest
    else .field node selections :: (modelled selections ++ modelled rest)
  | .spread _ rest => modelled rest
  | .inline node selections rest =>
    .inline node selections :: (modelled selections ++ modelled rest)

theorem lists_collect (used : List String) (selections : Selections) :
    (selections.collect used).1.Lists selections := by
  fun_induction collect used selections with
  | case1 used => exact ⟨rfl, rfl, rfl⟩
  | case2 used node selections rest hleaf later ih =>
    exact ⟨congrArg (node :: ·) ih.fields, ih.spreads, ih.inlines⟩
  | case3 used node selections rest hleaf taken below models later ihbelow ihlater =>
    exact ⟨congrArg (node :: ·) ihlater.fields, ihlater.spreads, ihlater.inlines⟩
  | case4 used node rest later ih =>
    exact ⟨ih.fields, congrArg (node :: ·) ih.spreads, ih.inlines⟩
  | case5 used node selections rest taken below models later ihbelow ihlater =>
    exact ⟨ihlater.fields, ihlater.spreads, congrArg (node :: ·) ihlater.inlines⟩

/-- What holds of every item with the model that is made of it holds of all models in turn. -/
theorem forall₂_collect {R : Selection → Model → Prop}
    (hfield : ∀ used node selections, ¬ FieldNode.isLeaf node = true →
      let taken := ModelName.take used node.modelName
      R (.field node selections)
        ⟨taken.1, node.type.name, (collect taken.2 selections).1.setFlags⟩)
    (hinline : ∀ used node selections,
      let taken := ModelName.take used (InlineNode.modelName node)
      R (.inline node selections) ⟨taken.1, node.onType, (collect taken.2 selections).1.setFlags⟩)
    (used : List String) (selections : Selections) :
    List.Forall₂ R selections.modelled (selections.collect used).2 := by
  fun_induction collect used selections with
  | case1 used => exact .nil
  | case2 used node selections rest hleaf later ih =>
    rw [modelled, if_pos hleaf]
    exact ih
  | case3 used node selections rest hleaf taken below models later ihbelow ihlater =>
    rw [modelled, if_neg hleaf]
    exact .cons (hfield used node selections hleaf) (List.rel_append ihbelow ihlater)
  | case4 used node rest later ih => exact ih
  | case5 used node selections rest taken below models later ihbelow ihlater =>
    exact .cons (hinline used node selections) (List.rel_append ihbelow ihlater)

theorem forall₂_isOf_collect (used : List String) (selections : Selections) :
    List.Forall₂ (fun item model => Model.IsOf model item) selections.modelled
      (selections.collect used).2 :=
  forall₂_collect (fun _ _ selections _ => .field rfl (lists_collect _ selections).setFlags)
    (fun _ _ selections => .inline rfl (lists_collect _ selections).setFlags) used selections

end Selections

end GraphQLIR
