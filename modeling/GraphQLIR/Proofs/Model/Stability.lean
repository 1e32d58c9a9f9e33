import GraphQLIR.Proofs.Model.Passes
import Mathlib.Logic.Relation
/-!
# Models under edits of selections

The name of a model depends on the items with a model before it and on nothing else. Selections that
are added at the end leave all models as they are, and leaf fields and spreads can come and go at any
depth without a change of names.
-/

namespace GraphQLIR

/-! ## Appended selections -/

namespace SelectionSet

variable {φ σ ι : Type}

theorem ofItems_append (xs ys : List (SelectionItem φ σ ι)) :
    ofItems (xs ++ ys) = ofItems xs ++ ofItems ys := by
  induction xs with
  | nil => rfl
  | cons item rest ih =>
    change cons item (ofItems (rest ++ ys)) = cons item (ofItems rest) ++ ofItems ys
    rw [ih]
    cases item <;> rfl

end SelectionSet

/-- The second level with the items of the first ahead of its own. -/
def ModelLevel.append (first second : ModelLevel) : ModelLevel :=
  { second with
    fields := first.fields ++ second.fields
    spreads := first.spreads ++ second.spreads
    inlines := first.inlines ++ second.inlines }

namespace Selections

/-- The first selections are collected as if they were alone, the others beside their names. -/
theorem collect_append (used : List String) (first second : Selections) :
    (first ++ second).collect used =
      ((first.collect used).1.append
          (second.collect (used ++ (first.collect used).2.map Model.name)).1,
        (first.collect used).2 ++
          (second.collect (used ++ (first.collect used).2.map Model.name)).2) := by
  fun_induction collect used first with
  | case1 used =>
    change second.collect used = _
    simp [ModelLevel.append, ModelLevel.empty]
  | case2 used node selections rest hleaf later ih =>
    change collect used (.field node selections (rest ++ second)) = _
    rw [collect, if_pos hleaf, ih]
    rfl
  | case3 used node selections rest hleaf taken below models later ihbelow ihlater =>
    have hused : used ++ (models ++ later.2).map Model.name =
        used ++ models.map Model.name ++ later.2.map Model.name := by simp
    change collect used (.field node selections (rest ++ second)) = _
    rw [collect, if_neg hleaf, hused]
    change ((collect (used ++ models.map Model.name) (rest ++ second)).1.addField _,
      models ++ (collect (used ++ models.map Model.name) (rest ++ second)).2) = _
    rw [ihlater]
    exact Prod.ext rfl (List.append_assoc _ _ _).symm
  | case4 used node rest later ih =>
    change collect used (.spread node (rest ++ second)) = _
    rw [collect, ih]
    rfl
  | case5 used node selections rest taken below models later ihbelow ihlater =>
    have hused : used ++ (models ++ later.2).map Model.name =
        used ++ models.map Model.name ++ later.2.map Model.name := by simp
    change collect used (.inline node selections (rest ++ second)) = _
    rw [collect, hused]
    change ((collect (used ++ models.map Model.name) (rest ++ second)).1.addInline _,
      models ++ (collect (used ++ models.map Model.name) (rest ++ second)).2) = _
    rw [ihlater]
    exact Prod.ext rfl (List.append_assoc _ _ _).symm

end Selections

/-- A level and models that start with others. -/
structure Continues (flat start : ModelLevel × List Model) : Prop where
  models : start.2 <+: flat.2
  fields : start.1.fields <+: flat.1.fields
  spreads : start.1.spreads <+: flat.1.spreads
  inlines : start.1.inlines <+: flat.1.inlines

theorem Selections.continues_flatten (first second : Selections) :
    Continues (first ++ second).flatten first.flatten := by
  unfold Selections.flatten
  rw [collect_append]
  constructor <;> exact List.prefix_append _ _

/-! ## Items without a model -/

namespace Selection

/-- Leaf fields and spreads have no model. -/
def Unmodelled : Selection → Prop
  | .field node _ => node.isLeaf = true
  | .spread _ => True
  | .inline _ _ => False

/-- The base names and types of the models of an item and of those below it. -/
def baseReferences : Selection → List ModelReference
  | .field node selections =>
    if node.isLeaf then []
    else ⟨node.modelName, node.type.name⟩ :: Selections.baseReferences selections
  | .spread _ => []
  | .inline node selections =>
    ⟨node.modelName, node.onType⟩ :: Selections.baseReferences selections

theorem Unmodelled.baseReferences_eq_nil {item : Selection} (h : item.Unmodelled) :
    item.baseReferences = [] := by
  cases item with
  | field node selections => exact if_pos h
  | spread node => rfl
  | inline node selections => exact h.elim

end Selection

theorem Model.map_reference_eq_zipWith (models : List Model) :
    models.map reference =
      List.zipWith ModelReference.mk (models.map name) (models.map baseType) := by
  rw [List.zipWith_map, List.zipWith_self]
  rfl

namespace Selections

theorem baseReferences_eq_flatMap_items (selections : Selections) :
    selections.baseReferences = selections.items.flatMap Selection.baseReferences := by
  induction selections with
  | empty => rfl
  | field node selections rest _ ihrest =>
    by_cases hleaf : node.isLeaf = true
    · rw [baseReferences_leaf hleaf, ihrest]
      simp [SelectionSet.items, Selection.baseReferences, hleaf]
    · rw [baseReferences_field hleaf, ihrest]
      simp [SelectionSet.items, Selection.baseReferences, hleaf]
  | spread node rest ihrest => exact ihrest
  | inline node selections rest _ ihrest =>
    rw [baseReferences_inline, ihrest]
    simp [SelectionSet.items, Selection.baseReferences]

theorem baseReferences_ofItems (before after : List Selection) (item : Selection) :
    baseReferences (.ofItems (before ++ item :: after)) =
      baseReferences (.ofItems before) ++ (item.baseReferences ++ baseReferences (.ofItems after)) := by
  simp [baseReferences_eq_flatMap_items]

/-- The second selections are the first ones with one more item that has no model, at any position
and any depth. -/
inductive InsertsOne : Selections → Selections → Prop
  | here (before after : List Selection) {item : Selection} (hitem : item.Unmodelled) :
    InsertsOne (.ofItems (before ++ after)) (.ofItems (before ++ item :: after))
  | belowField (before after : List Selection) (node : FieldNode) {selections changed : Selections}
    (hbelow : InsertsOne selections changed) :
    InsertsOne (.ofItems (before ++ .field node selections :: after))
      (.ofItems (before ++ .field node changed :: after))
  | belowInline (before after : List Selection) (node : InlineNode)
    {selections changed : Selections} (hbelow : InsertsOne selections changed) :
    InsertsOne (.ofItems (before ++ .inline node selections :: after))
      (.ofItems (before ++ .inline node changed :: after))

theorem InsertsOne.baseReferences_eq {before after : Selections} (h : InsertsOne before after) :
    after.baseReferences = before.baseReferences := by
  induction h with
  | here before after hitem =>
    rw [baseReferences_ofItems, hitem.baseReferences_eq_nil, List.nil_append]
    simp [baseReferences_eq_flatMap_items]
  | belowField before after node _ ih =>
    rw [baseReferences_ofItems, baseReferences_ofItems, Selection.baseReferences, ih]
    rfl
  | belowInline before after node _ ih =>
    rw [baseReferences_ofItems, baseReferences_ofItems, Selection.baseReferences, ih]
    rfl

/-- A leaf field or spread comes or goes. -/
def EditsOne (before after : Selections) : Prop :=
  InsertsOne before after ∨ InsertsOne after before

/-- Leaf fields and spreads come and go. -/
abbrev Edits : Selections → Selections → Prop :=
  Relation.ReflTransGen EditsOne

theorem Edits.baseReferences_eq {before after : Selections} (h : Edits before after) :
    after.baseReferences = before.baseReferences := by
  induction h with
  | refl => rfl
  | tail _ hstep ih =>
    rcases hstep with hinserts | hdeletes
    · exact hinserts.baseReferences_eq.trans ih
    · exact hdeletes.baseReferences_eq.symm.trans ih

/-- The listing determines the names and types of the models. -/
theorem map_reference_flatten_congr {first second : Selections}
    (h : first.baseReferences = second.baseReferences) :
    first.flatten.2.map Model.reference = second.flatten.2.map Model.reference := by
  have hfirst := first.takenInTurn_collect []
  rw [h] at hfirst
  have hnames : first.flatten.2.map Model.name = second.flatten.2.map Model.name :=
    hfirst.unique (second.takenInTurn_collect [])
  have htypes : first.flatten.2.map Model.baseType = second.flatten.2.map Model.baseType :=
    calc first.flatten.2.map Model.baseType
      _ = first.baseReferences.map ModelReference.baseType := first.map_baseType_collect []
      _ = second.baseReferences.map ModelReference.baseType := by rw [h]
      _ = second.flatten.2.map Model.baseType := (second.map_baseType_collect []).symm
  rw [Model.map_reference_eq_zipWith, Model.map_reference_eq_zipWith, hnames, htypes]

end Selections

/-! ## Stable models -/

/-- What flattening does to the selections of one owner when they are edited. -/
structure StableModels (flatten : Selections → ModelLevel × List Model) : Prop where
  /-- Items that are added at the end come after everything that was there without them. -/
  continued : ∀ first second : List Selection,
    Continues (flatten (.ofItems (first ++ second))) (flatten (.ofItems first))
  /-- Leaf fields and spreads change no name and no type of a model. -/
  unaffected : ∀ before after, Selections.Edits before after →
    (flatten after).2.map Model.reference = (flatten before).2.map Model.reference

theorem Selections.stableModels_flatten : StableModels Selections.flatten where
  continued first second := by
    rw [SelectionSet.ofItems_append]
    exact continues_flatten _ _
  unaffected before after hedits := map_reference_flatten_congr hedits.baseReferences_eq

/-- Selections are flattened stably, by themselves and as those of an operation or fragment. -/
theorem modelNames_stable :
    StableModels Selections.flatten ∧
    (∀ operation : Operation, StableModels fun selections =>
      let flat := ({ operation with selections := selections } : Operation).flatten
      (flat.level, flat.models)) ∧
    ∀ fragment : Fragment, StableModels fun selections =>
      let flat := ({ fragment with selections := selections } : Fragment).flatten
      (flat.level, flat.models) :=
  ⟨Selections.stableModels_flatten, fun _ => Selections.stableModels_flatten,
    fun _ => Selections.stableModels_flatten⟩

/-- The selections `{ user { … } user { } }`, with these items for the first user. -/
def twoUsers (below : List Selection) : Selections :=
  let user : FieldNode := ⟨"user", none, ⟨"User", "User", .object, false, false, false⟩, default⟩
  .field user (.ofItems below) (.field user .empty .empty)

theorem modelNames_twoUsers :
    let spread : Selection := .spread ⟨"F", default⟩
    Selections.Edits (twoUsers []) (twoUsers [spread]) ∧
      (twoUsers [spread]).flatten.2.map Model.name = ["User", "User_1"] ∧
      (twoUsers [spread]).flatten.2.map Model.reference =
        (twoUsers []).flatten.2.map Model.reference := by
  intro spread
  have hinserts : Selections.InsertsOne (twoUsers []) (twoUsers [spread]) :=
    .belowField [] [.field _ .empty] _ (.here [] [] trivial)
  have hedits : Selections.Edits (twoUsers []) (twoUsers [spread]) := .single (.inl hinserts)
  exact ⟨hedits, by decide, modelNames_stable.1.unaffected _ _ hedits⟩

end GraphQLIR
