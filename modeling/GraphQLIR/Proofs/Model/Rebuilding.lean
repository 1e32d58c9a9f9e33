import GraphQLIR.Proofs.Model.Forest
import GraphQLIR.Proofs.Model.Listing
/-!
# Rebuilding selections from models

Putting the selections of each model back in the place of its name undoes flattening, up to two
things that a flattened level does not keep: the order between items of different kinds, and
selections of leaf fields.
-/

namespace GraphQLIR

/-! ## Selections grouped by kind -/

namespace Selections

/-- Groups the selections of every item by kind, at every depth, and drops those of leaf fields. -/
def groupedBelow : Selections → Selections
  | .empty => .empty
  | .field node selections rest =>
    .field node (if node.isLeaf then .empty else (groupedBelow selections).grouped)
      (groupedBelow rest)
  | .spread node rest => .spread node (groupedBelow rest)
  | .inline node selections rest =>
    .inline node (groupedBelow selections).grouped (groupedBelow rest)

/-- The selections grouped by kind at every level, without those of leaf fields. -/
def groupedThroughout (selections : Selections) : Selections :=
  selections.groupedBelow.grouped

end Selections

/-! ## Putting selections back -/

def ModelField.rebuild? (lookup : String → Option Selections) (field : ModelField) :
    Option Selection :=
  match field.modelName with
  | none => some (.field field.node .empty)
  | some name => (lookup name).map (.field field.node)

def ModelInline.rebuild? (lookup : String → Option Selections) (inline : ModelInline) :
    Option Selection :=
  (lookup inline.modelName).map (.inline inline.node)

/-- The items of a level, with what `lookup` has for the name of a model as its selections. -/
def ModelLevel.rebuild? (lookup : String → Option Selections) (level : ModelLevel) :
    Option Selections := do
  let fields ← level.fields.mapM (ModelField.rebuild? lookup)
  let inlines ← level.inlines.mapM (ModelInline.rebuild? lookup)
  return .ofItems (fields ++ level.spreads.map .spread ++ inlines)

/-- The selections of the model of this name, rebuilt to at most this depth. -/
def Model.selections? (models : List Model) : Nat → String → Option Selections
  | 0, _ => none
  | depth + 1, name => do
    let model ← models.find? fun model => model.name == name
    model.level.rebuild? (selections? models depth)

/-- The fragment with nested selections in the place of its models. No chain of models in which
each refers to the next is longer than the list of all models. -/
def FlatFragment.rebuild? (fragment : FlatFragment) : Option Fragment := do
  let selections ← fragment.level.rebuild?
    (Model.selections? fragment.models fragment.models.length)
  return {
    name := fragment.name
    onType := fragment.onType
    selections
    text := fragment.text
    directives := fragment.directives
  }

/-- The operation with nested selections in the place of its models. -/
def FlatOperation.rebuild? (operation : FlatOperation) : Option Operation := do
  let selections ← operation.level.rebuild?
    (Model.selections? operation.models operation.models.length)
  return {
    name := operation.name
    operationType := operation.operationType
    vars := operation.vars
    hasVars := operation.hasVars
    selections
    text := operation.text
    directives := operation.directives
  }

namespace ModelLevel

/-- The items of the level are rebuilt as those of a selection set, kind by kind. -/
structure RebuildsTo (lookup : String → Option Selections) (level : ModelLevel)
    (selections : Selections) : Prop where
  fields : level.fields.mapM (ModelField.rebuild? lookup) = some (selections.itemsOf .field)
  spreads : level.spreads.map .spread = selections.itemsOf .spread
  inlines : level.inlines.mapM (ModelInline.rebuild? lookup) = some (selections.itemsOf .inline)

namespace RebuildsTo

variable {lookup : String → Option Selections} {level : ModelLevel} {selections : Selections}

theorem rebuild?_eq (h : level.RebuildsTo lookup selections) :
    level.rebuild? lookup = some selections.grouped := by
  unfold ModelLevel.rebuild?
  rw [h.fields, h.spreads, h.inlines]
  rfl

theorem empty (lookup : String → Option Selections) :
    ModelLevel.empty.RebuildsTo lookup .empty := ⟨rfl, rfl, rfl⟩

/-- Flags are no items. -/
theorem setFlags (h : level.RebuildsTo lookup selections) :
    level.setFlags.RebuildsTo lookup selections :=
  ⟨h.fields, h.spreads, h.inlines⟩

theorem addField (h : level.RebuildsTo lookup selections) {field : ModelField} {node : FieldNode}
    {inner : Selections} (hfield : field.rebuild? lookup = some (.field node inner)) :
    (level.addField field).RebuildsTo lookup (.field node inner selections) where
  fields := by
    change (field :: level.fields).mapM (ModelField.rebuild? lookup) = _
    rw [List.mapM_cons, hfield, h.fields]
    rfl
  spreads := h.spreads
  inlines := h.inlines

theorem addSpread (h : level.RebuildsTo lookup selections) (node : SpreadNode) :
    (level.addSpread node).RebuildsTo lookup (.spread node selections) where
  fields := h.fields
  spreads := congrArg (SelectionItem.spread node :: ·) h.spreads
  inlines := h.inlines

theorem addInline (h : level.RebuildsTo lookup selections) {inline : ModelInline}
    {node : InlineNode} {inner : Selections}
    (hinline : inline.rebuild? lookup = some (.inline node inner)) :
    (level.addInline inline).RebuildsTo lookup (.inline node inner selections) where
  fields := h.fields
  spreads := h.spreads
  inlines := by
    change (inline :: level.inlines).mapM (ModelInline.rebuild? lookup) = _
    rw [List.mapM_cons, hinline, h.inlines]
    rfl

end RebuildsTo

end ModelLevel

namespace Model

/-- Looking up any of `part` by name finds it, and `depth` allows for a chain through all of it. -/
structure Suffices (models : List Model) (depth : Nat) (part : List Model) : Prop where
  find?_eq : ∀ model ∈ part, models.find? (fun other => other.name == model.name) = some model
  length_le : part.length ≤ depth

namespace Suffices

variable {models : List Model} {depth : Nat} {model : Model} {below later : List Model}

theorem of_append {first second : List Model} (h : Suffices models depth (first ++ second)) :
    Suffices models depth second where
  find?_eq := (List.forall_mem_append.1 h.find?_eq).2
  length_le := by
    have hlength := h.length_le
    rw [List.length_append] at hlength
    omega

/-- The models below one model are fewer, so less depth suffices for them. -/
theorem selections?_eq {selections : Selections}
    (h : Suffices models depth (model :: below ++ later))
    (hlevel : ∀ depth, Suffices models depth below →
      model.level.RebuildsTo (Model.selections? models depth) selections) :
    Model.selections? models depth model.name = some selections.grouped := by
  have hfound := List.forall_mem_cons.1 (List.forall_mem_append.1 h.find?_eq).1
  have hlength := h.length_le
  rw [List.length_append, List.length_cons] at hlength
  cases depth with
  | zero => omega
  | succ depth =>
    have hbelow : Suffices models depth below := ⟨hfound.2, by omega⟩
    rw [Model.selections?, hfound.1]
    exact (hlevel depth hbelow).rebuild?_eq

/-- Of models with distinct names, the first of a name is the only one. -/
theorem of_nodup {models : List Model} (hnames : (models.map Model.name).Nodup) :
    Suffices models models.length models := by
  refine ⟨fun model hmodel => ?_, Nat.le_refl _⟩
  induction models with
  | nil => cases hmodel
  | cons head rest ih =>
    rw [List.map_cons, List.nodup_cons] at hnames
    rcases List.mem_cons.1 hmodel with rfl | hrest
    · rw [List.find?_cons_of_pos (by simp)]
    · have hne : head.name ≠ model.name := by
        intro heq
        exact hnames.1 (heq ▸ List.mem_map_of_mem hrest)
      rw [List.find?_cons_of_neg (by simpa using hne)]
      exact ih hnames.2 hrest

end Suffices

end Model

theorem Selections.rebuildsTo_collect (models : List Model) (used : List String)
    (selections : Selections) : ∀ depth, Model.Suffices models depth (selections.collect used).2 →
      (selections.collect used).1.RebuildsTo (Model.selections? models depth)
        selections.groupedBelow := by
  fun_induction collect used selections with
  | case1 used =>
    intro depth _
    exact .empty _
  | case2 used node selections rest hleaf later ih =>
    intro depth h
    rw [groupedBelow, if_pos hleaf]
    exact (ih depth h).addField rfl
  | case3 used node selections rest hleaf taken below nested later ihbelow ihlater =>
    intro depth h
    have hname := Model.Suffices.selections?_eq h fun depth hbelow =>
      (ihbelow depth hbelow).setFlags
    rw [groupedBelow, if_neg hleaf]
    exact (ihlater depth h.of_append).addField (congrArg (Option.map _) hname)
  | case4 used node rest later ih =>
    intro depth h
    exact (ih depth h).addSpread node
  | case5 used node selections rest taken below nested later ihbelow ihlater =>
    intro depth h
    have hname := Model.Suffices.selections?_eq h fun depth hbelow =>
      (ihbelow depth hbelow).setFlags
    exact (ihlater depth h.of_append).addInline (congrArg (Option.map _) hname)

theorem Selections.rebuild?_flatten (selections : Selections) :
    selections.flatten.1.rebuild?
        (Model.selections? selections.flatten.2 selections.flatten.2.length) =
      some selections.groupedThroughout := by
  have hsuffices := Model.Suffices.of_nodup selections.nodup_names
  exact (rebuildsTo_collect selections.flatten.2 [] selections _ hsuffices).setFlags.rebuild?_eq

/-- What flattening makes of an operation or fragment can be rebuilt into it, with its selections
grouped by kind and without those of leaf fields. -/
theorem rebuild?_flatten_eq_grouped :
    (∀ operation : Operation, operation.flatten.rebuild? =
      some { operation with selections := operation.selections.groupedThroughout }) ∧
    ∀ fragment : Fragment, fragment.flatten.rebuild? =
      some { fragment with selections := fragment.selections.groupedThroughout } := by
  refine ⟨fun operation => ?_, fun fragment => ?_⟩
  · unfold FlatOperation.rebuild?
    simp only [Operation.flatten, operation.selections.rebuild?_flatten]
    rfl
  · unfold FlatFragment.rebuild?
    simp only [Fragment.flatten, fragment.selections.rebuild?_flatten]
    rfl

end GraphQLIR
