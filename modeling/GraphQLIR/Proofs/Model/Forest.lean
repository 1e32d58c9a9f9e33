import GraphQLIR.Model.FlatDocument
import GraphQLIR.Proofs.Model.Naming
import Mathlib.Data.List.Perm.Basic
/-!
# The forest of models

A flattened fragment or operation holds its selections as one level and a list of models, which
refer to each other by name. The references form a forest under the root level: every model is
referred to from exactly one place, and only by the root level or by a model listed before it.
-/

namespace GraphQLIR

/-- A model as named by a field or inline fragment, with the type that its selections are of. -/
structure ModelReference where
  modelName : String
  baseType : String

/-- The reference that this model answers. -/
def Model.reference (model : Model) : ModelReference :=
  ⟨model.name, model.baseType⟩

def ModelField.reference? (field : ModelField) : Option ModelReference :=
  field.modelName.map fun name => ⟨name, field.type.name⟩

def ModelInline.reference (inline : ModelInline) : ModelReference :=
  ⟨inline.modelName, inline.onType⟩

namespace ModelLevel

/-- The references of the fields, then those of the inline fragments. -/
def references (level : ModelLevel) : List ModelReference :=
  level.fields.filterMap ModelField.reference? ++ level.inlines.map ModelInline.reference

/-- Just the leaf fields have no model. -/
def LeavesUnnamed (level : ModelLevel) : Prop :=
  ∀ field ∈ level.fields, field.modelName = none ↔ field.type.isLeaf = true

theorem references_addInline (level : ModelLevel) (node : InlineNode) (name : String) :
    (level.addInline (node.toModelInline name)).references.Perm
      (⟨name, node.onType⟩ :: level.references) :=
  List.perm_middle

theorem LeavesUnnamed.addField {level : ModelLevel} (h : level.LeavesUnnamed) {field : ModelField}
    (hfield : field.modelName = none ↔ field.type.isLeaf = true) :
    (level.addField field).LeavesUnnamed :=
  List.forall_mem_cons.2 ⟨hfield, h⟩

end ModelLevel

namespace Model

/-- All references of a root level and of models. -/
def references (root : ModelLevel) (models : List Model) : List ModelReference :=
  root.references ++ models.flatMap fun model => model.level.references

/-- Each model answers one reference, and each reference has a model that answers it. -/
def Answered (root : ModelLevel) (models : List Model) : Prop :=
  (references root models).Perm (models.map reference)

theorem map_modelName_reference (models : List Model) :
    (models.map reference).map ModelReference.modelName = models.map name := by
  rw [List.map_map]
  rfl

/-- A model goes ahead of those below it, and these ahead of those of the items that follow. -/
theorem Answered.nest {root level : ModelLevel} {model : Model} {below later : List Model}
    (hbelow : Answered model.level below) (hlater : Answered level later)
    (hroot : root.references.Perm (model.reference :: level.references)) :
    Answered root (model :: below ++ later) := by
  unfold Answered references at *
  rw [List.flatMap_append, List.flatMap_cons, List.map_append, List.map_cons]
  have hrest := hbelow.append hlater
  refine (hroot.append_right _).trans (List.Perm.cons _ ?_)
  exact (List.perm_append_comm_assoc _ _ _).trans hrest

theorem Answered.references_subset {root : ModelLevel} {models : List Model}
    (h : Answered root models) : root.references ⊆ models.map reference := by
  intro reference hreference
  exact h.subset (List.mem_append_left _ hreference)

/-- Every reference of a model names one listed after it. -/
def ReferToLater : List Model → Prop
  | [] => True
  | model :: later => model.level.references ⊆ later.map reference ∧ ReferToLater later

theorem ReferToLater.append {first second : List Model} (hfirst : ReferToLater first)
    (hsecond : ReferToLater second) : ReferToLater (first ++ second) := by
  induction first with
  | nil => exact hsecond
  | cons model later ih =>
    rw [List.cons_append]
    refine ⟨fun reference hreference => ?_, ih hfirst.2⟩
    rw [List.map_append]
    exact List.mem_append_left _ (hfirst.1 hreference)

theorem ReferToLater.nest {model : Model} {below later : List Model}
    (hmodel : Answered model.level below) (hbelow : ReferToLater below)
    (hlater : ReferToLater later) : ReferToLater (model :: below ++ later) := by
  have hfirst : ReferToLater (model :: below) := ⟨hmodel.references_subset, hbelow⟩
  exact hfirst.append hlater

theorem ReferToLater.references_subset {models : List Model} (h : ReferToLater models)
    {model : Model} (hmodel : model ∈ models) :
    model.level.references ⊆ models.map reference := by
  induction models with
  | nil => cases hmodel
  | cons head later ih =>
    rw [List.map_cons]
    rcases List.mem_cons.1 hmodel with rfl | hlater
    · exact fun _ hreference => List.mem_cons_of_mem _ (h.1 hreference)
    · exact fun _ hreference => List.mem_cons_of_mem _ (ih h.2 hlater hreference)

/-- Distinct names make the position of the model that a reference names unique. -/
theorem ReferToLater.lt {models : List Model} (h : ReferToLater models)
    (hnames : (models.map name).Nodup) {i j : Nat} (hi : i < models.length) (hj : j < models.length)
    (hreference : models[j].name ∈ models[i].level.references.map ModelReference.modelName) :
    i < j := by
  induction models generalizing i j with
  | nil => exact absurd hi (Nat.not_lt_zero i)
  | cons head later ih =>
    have hhead : head.name ∉ later.map name := (List.nodup_cons.1 hnames).1
    cases j with
    | zero =>
      -- No model refers to the head: all references name models after it.
      have hlater : (head :: later)[i].level.references ⊆ later.map reference := by
        cases i with
        | zero => exact h.1
        | succ i => exact h.2.references_subset (List.getElem_mem _)
      have hmem := List.map_subset ModelReference.modelName hlater hreference
      rw [map_modelName_reference] at hmem
      exact absurd hmem hhead
    | succ j =>
      cases i with
      | zero => exact Nat.zero_lt_succ j
      | succ i =>
        have hlt := ih h.2 (List.nodup_cons.1 hnames).2 (Nat.lt_of_succ_lt_succ hi)
          (Nat.lt_of_succ_lt_succ hj) hreference
        exact Nat.succ_lt_succ hlt

end Model

/-! ## Collected models -/

namespace Selections

/-- Names are chosen one after the other, each distinct from all names before it. -/
theorem nodup_used_append_names {used : List String} (selections : Selections)
    (hused : used.Nodup) : (used ++ (selections.collect used).2.map Model.name).Nodup := by
  fun_induction collect used selections with
  | case1 used => simpa using hused
  | case2 used node selections rest hleaf later ih => exact ih hused
  | case3 used node selections rest hleaf taken below models later ihbelow ihlater =>
    have hmodels : (used ++ models.map Model.name).Nodup := by
      simpa [models, below, taken, ModelName.take] using ihbelow (ModelName.nodup_append_fresh hused node.modelName)
    simpa using ihlater hmodels
  | case4 used node rest later ih => exact ih hused
  | case5 used node selections rest taken below models later ihbelow ihlater =>
    have hmodels : (used ++ models.map Model.name).Nodup := by
      simpa [models, below, taken, ModelName.take] using ihbelow (ModelName.nodup_append_fresh hused node.modelName)
    simpa using ihlater hmodels

theorem nodup_names (selections : Selections) : (selections.flatten.2.map Model.name).Nodup := by
  simpa [flatten] using nodup_used_append_names selections List.nodup_nil

theorem answered_collect (used : List String) (selections : Selections) :
    Model.Answered (selections.collect used).1 (selections.collect used).2 := by
  fun_induction collect used selections with
  | case1 used => exact List.Perm.nil
  | case2 used node selections rest hleaf later ih => exact ih
  | case3 used node selections rest hleaf taken below models later ihbelow ihlater =>
    exact ihbelow.nest ihlater (List.Perm.refl _)
  | case4 used node rest later ih => exact ih
  | case5 used node selections rest taken below models later ihbelow ihlater =>
    exact ihbelow.nest ihlater (later.1.references_addInline node taken.1)

theorem referToLater_collect (used : List String) (selections : Selections) :
    Model.ReferToLater (selections.collect used).2 := by
  fun_induction collect used selections with
  | case1 used => exact trivial
  | case2 used node selections rest hleaf later ih => exact ih
  | case3 used node selections rest hleaf taken below models later ihbelow ihlater =>
    exact Model.ReferToLater.nest (answered_collect _ selections) ihbelow ihlater
  | case4 used node rest later ih => exact ih
  | case5 used node selections rest taken below models later ihbelow ihlater =>
    exact Model.ReferToLater.nest (answered_collect _ selections) ihbelow ihlater

theorem leavesUnnamed_collect (used : List String) (selections : Selections) :
    (selections.collect used).1.LeavesUnnamed ∧
      ∀ model ∈ (selections.collect used).2, model.level.LeavesUnnamed := by
  fun_induction collect used selections with
  | case1 used =>
    exact ⟨List.forall_mem_nil _, List.forall_mem_nil _⟩
  | case2 used node selections rest hleaf later ih =>
    exact ⟨ih.1.addField (iff_of_true rfl hleaf), ih.2⟩
  | case3 used node selections rest hleaf taken below models later ihbelow ihlater =>
    have hfield : some taken.1 = none ↔ node.type.isLeaf = true :=
      iff_of_false (Option.some_ne_none taken.1) hleaf
    refine ⟨ihlater.1.addField hfield, List.forall_mem_append.2 ⟨?_, ihlater.2⟩⟩
    exact List.forall_mem_cons.2 ihbelow
  | case4 used node rest later ih => exact ih
  | case5 used node selections rest taken below models later ihbelow ihlater =>
    refine ⟨ihlater.1, List.forall_mem_append.2 ⟨?_, ihlater.2⟩⟩
    exact List.forall_mem_cons.2 ihbelow

end Selections

/-! ## The forest -/

/-- Models that hang together below a root level. -/
structure ModelForest (root : ModelLevel) (models : List Model) : Prop where
  names_nodup : (models.map Model.name).Nodup
  referenced_once : ∀ model ∈ models,
    ((Model.references root models).map ModelReference.modelName).count model.name = 1
  answered : ∀ reference ∈ Model.references root models,
    ∃ model ∈ models, model.name = reference.modelName ∧ model.baseType = reference.baseType
  /-- The model at `i` can refer to the model at `j` only if this one stands after it. -/
  refer_later : ∀ i j (hi : i < models.length) (hj : j < models.length),
    models[j].name ∈ models[i].level.references.map ModelReference.modelName → i < j
  leaves_unnamed : ∀ level ∈ root :: models.map Model.level, ∀ field ∈ level.fields,
    field.modelName = none ↔ field.type.isLeaf = true

theorem Selections.forest (selections : Selections) :
    ModelForest selections.flatten.1 selections.flatten.2 where
  names_nodup := selections.nodup_names
  referenced_once := by
    intro model hmodel
    have hanswered := (answered_collect [] selections).map ModelReference.modelName
    rw [Model.map_modelName_reference] at hanswered
    have hcount := List.count_eq_one_of_mem selections.nodup_names (List.mem_map_of_mem hmodel)
    exact (hanswered.count_eq model.name).trans hcount
  answered := by
    intro reference hreference
    have hmem := (answered_collect [] selections).subset hreference
    obtain ⟨model, hmodel, rfl⟩ := List.mem_map.1 hmem
    exact ⟨model, hmodel, rfl, rfl⟩
  refer_later := by
    intro i j hi hj hreference
    exact (referToLater_collect [] selections).lt selections.nodup_names hi hj hreference
  leaves_unnamed := by
    obtain ⟨hroot, hmodels⟩ := leavesUnnamed_collect [] selections
    intro level hlevel
    rcases List.mem_cons.1 hlevel with rfl | hlevel
    · exact hroot
    · obtain ⟨model, hmodel, rfl⟩ := List.mem_map.1 hlevel
      exact hmodels model hmodel

/-- The models of every operation and fragment form a forest below its own level, whatever its
selections are. -/
theorem modelForest_flatten :
    (∀ operation : Operation, ModelForest operation.flatten.level operation.flatten.models) ∧
      ∀ fragment : Fragment, ModelForest fragment.flatten.level fragment.flatten.models :=
  ⟨fun operation => operation.selections.forest, fun fragment => fragment.selections.forest⟩

end GraphQLIR
