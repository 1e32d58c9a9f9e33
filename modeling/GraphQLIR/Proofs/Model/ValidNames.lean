import GraphQLIR.Proofs.Model.Flags
import GraphQLIR.Proofs.Model.Passes
import GraphQLIR.Proofs.Text.Names
/-!
# Model names that are names

Models are to be declared as types, so that their names have to be names. They are, provided that
what remains of a response key, or of the type behind it, does not start with a digit. Nothing makes
sure of that: the key `_1` gives the model name `1`, and a type `_` can give an empty one.
-/

namespace GraphQLIR

open Text (IsName)

/-! ## Nodes -/

namespace FieldNode

/-- All that a model can be named after is a name. -/
structure NamesValid (node : FieldNode) : Prop where
  name : IsName node.name
  aliasName : ∀ aliasName ∈ node.aliasName, IsName aliasName
  type : IsName node.type.name

/-- The first character of a word in the response key, or else in the type. -/
def wordStart? (node : FieldNode) : Option Char :=
  (Text.wordStart? node.responseKey).or (Text.wordStart? node.type.name)

instance (node : FieldNode) : Decidable node.NamesValid :=
  decidable_of_iff (IsName node.name ∧ (∀ aliasName ∈ node.aliasName, IsName aliasName) ∧
    IsName node.type.name)
    ⟨fun h => ⟨h.1, h.2.1, h.2.2⟩, fun h => ⟨h.name, h.aliasName, h.type⟩⟩

variable {node : FieldNode}

theorem NamesValid.responseKey (h : node.NamesValid) : IsName node.responseKey := by
  unfold FieldNode.responseKey
  cases halias : node.aliasName with
  | none => exact h.name
  | some aliasName => exact h.aliasName aliasName halias

theorem isName_modelName_iff (h : node.NamesValid) :
    IsName node.modelName ↔ ∃ c ∈ node.wordStart?, c.isDigit = false := by
  have hempty := @Text.pascalCase_eq_empty_iff node.responseKey
  rw [modelName, wordStart?]
  cases hstart : Text.wordStart? node.responseKey with
  | none =>
    rw [hempty.2 hstart]
    exact Text.isName_pascalCase_iff h.type.chars
  | some c =>
    have hnonempty : (Text.pascalCase node.responseKey).isEmpty = false := by
      rw [String.isEmpty_eq_false_iff]
      intro hkey
      rw [hempty.1 hkey] at hstart
      contradiction
    simp only [hnonempty, Bool.false_eq_true, if_false]
    rw [Text.isName_pascalCase_iff h.responseKey.chars, hstart, Option.some_or]

end FieldNode

theorem InlineNode.isName_modelName {node : InlineNode} (h : IsName node.onType) :
    IsName node.modelName := by
  have hprefix : IsName "On" := by decide
  exact hprefix.append h.chars

namespace ModelName

theorem isName_numbered {base : String} (h : IsName base) (number : Nat) :
    IsName (numbered base number) := by
  rw [numbered_eq_append]
  apply h.append
  have hunderscore : "_".toList = ['_'] := by decide
  rw [String.toList_append, List.forall_mem_append, hunderscore, List.forall_mem_singleton]
  constructor
  · exact .inr rfl
  · intro c hc
    rw [Nat.toString_eq_repr, Nat.toList_repr] at hc
    have hdigit : c.isDigit = true := Nat.isDigit_of_mem_toDigits (by decide) (by decide) hc
    exact .inl (Bool.or_eq_true_iff.2 (.inr hdigit))

theorem IsFirstFree.isName {used : List String} {base name : String}
    (h : IsFirstFree used base name) (hbase : IsName base) : IsName name := by
  cases h with
  | base _ => exact hbase
  | numbered _ _ _ _ => exact isName_numbered hbase _

end ModelName

/-! ## Items -/

namespace Selection

/-- The names in an item are names. -/
def NamesValid : Selection → Prop
  | .field node _ => node.NamesValid
  | .spread _ => True
  | .inline node _ => IsName node.onType

/-- There is a word that a model can be named after and that does not start with a digit. -/
def Nameable : Selection → Prop
  | .field node _ => ∃ c ∈ node.wordStart?, c.isDigit = false
  | .spread _ | .inline _ _ => True

instance : DecidablePred NamesValid
  | .field node _ => inferInstanceAs (Decidable node.NamesValid)
  | .spread _ => inferInstanceAs (Decidable True)
  | .inline node _ => inferInstanceAs (Decidable (IsName node.onType))

end Selection

/-- The model stands for the item, and is declared by a name if the item is nameable. -/
structure Model.Declares (model : Model) (item : Selection) : Prop where
  isOf : model.IsOf item
  isName : item.Nameable → IsName model.name

namespace Selections

theorem modelled_sublist_preorder (selections : Selections) :
    selections.modelled.Sublist selections.preorder := by
  induction selections with
  | empty => exact List.Sublist.refl _
  | field node selections rest ihbelow ihrest =>
    rw [modelled, SelectionSet.preorder]
    split
    · exact (ihrest.trans (List.sublist_append_right _ _)).cons _
    · exact (ihbelow.append ihrest).cons_cons _
  | spread node rest ihrest => exact ihrest.cons _
  | inline node selections rest ihbelow ihrest => exact (ihbelow.append ihrest).cons_cons _

theorem forall₂_declares_collect (used : List String) (selections : Selections) :
    List.Forall₂ (fun item model => Selection.NamesValid item → Model.Declares model item)
      selections.modelled (selections.collect used).2 := by
  apply forall₂_collect
  case hfield =>
    intro used node selections _ taken hvalid
    refine ⟨.field rfl (lists_collect _ selections).setFlags, fun hnameable => ?_⟩
    have hfree := ModelName.isFirstFree_fresh used node.modelName
    exact hfree.isName ((FieldNode.isName_modelName_iff hvalid).2 hnameable)
  case hinline =>
    intro used node selections taken hvalid
    refine ⟨.inline rfl (lists_collect _ selections).setFlags, fun _ => ?_⟩
    have hfree := ModelName.isFirstFree_fresh used node.modelName
    exact hfree.isName (InlineNode.isName_modelName hvalid)

/-- A base name is the name of the first model with it, so that it has to be a name as well. -/
theorem nameable_of_isName_flatten {selections : Selections}
    (hvalid : ∀ item ∈ selections.modelled, Selection.NamesValid item)
    (h : ∀ model ∈ selections.flatten.2, IsName model.name) :
    ∀ item ∈ selections.modelled, Selection.Nameable item := by
  intro item hitem
  cases item with
  | field node below =>
    have hreference : ⟨node.modelName, node.type.name⟩ ∈ selections.baseReferences :=
      List.mem_filterMap.2 ⟨_, hitem, rfl⟩
    have hbase : node.modelName ∈ selections.baseReferences.map ModelReference.modelName :=
      List.mem_map_of_mem hreference
    have htaken := (selections.takenInTurn_collect []).bases_subset hbase
    rw [List.nil_append] at htaken
    obtain ⟨model, hmodel, hname⟩ := List.mem_map.1 htaken
    have hmodelName : IsName node.modelName := hname ▸ h model hmodel
    exact (FieldNode.isName_modelName_iff (hvalid _ hitem)).1 hmodelName
  | spread node => exact trivial
  | inline node below => exact trivial

end Selections

/-! ## Documents -/

/-- The models of all fragments, then those of all operations. -/
def FlatDocument.models (document : FlatDocument) : List Model :=
  document.fragments.flatMap FlatFragment.models ++ document.operations.flatMap FlatOperation.models

namespace Document

/-- The selections of all fragments, then those of all operations. -/
def selectionSets (document : Document) : List Selections :=
  document.fragments.map Fragment.selections ++ document.operations.map Operation.selections

/-- The items that have a model. -/
def modelled (document : Document) : List Selection :=
  document.selectionSets.flatMap Selections.modelled

/-- All names in the selections are names. -/
def NamesValid (document : Document) : Prop :=
  ∀ item ∈ document.selectionItems, Selection.NamesValid item

instance (document : Document) : Decidable document.NamesValid :=
  inferInstanceAs (Decidable (∀ item ∈ document.selectionItems, Selection.NamesValid item))

theorem selectionItems_eq_flatMap (document : Document) :
    document.selectionItems = document.selectionSets.flatMap SelectionSet.preorder := by
  rw [selectionSets, List.flatMap_append, List.flatMap_map, List.flatMap_map]
  rfl

theorem models_flatten (document : Document) :
    document.flatten.models =
      document.selectionSets.flatMap fun selections => selections.flatten.2 := by
  rw [selectionSets, List.flatMap_append, List.flatMap_map, List.flatMap_map, FlatDocument.models,
    flatten, List.flatMap_map, List.flatMap_map]
  rfl

theorem NamesValid.of_mem_modelled {document : Document} (h : document.NamesValid) :
    ∀ item ∈ document.modelled, Selection.NamesValid item := by
  intro item hitem
  obtain ⟨selections, hselections, hmodelled⟩ := List.mem_flatMap.1 hitem
  apply h
  rw [selectionItems_eq_flatMap]
  have hpreorder := selections.modelled_sublist_preorder.subset hmodelled
  exact List.mem_flatMap.2 ⟨selections, hselections, hpreorder⟩

theorem forall₂_declares (document : Document) :
    List.Forall₂ (fun item model => Selection.NamesValid item → Model.Declares model item)
      document.modelled document.flatten.models := by
  rw [models_flatten]
  refine List.rel_flatMap (List.forall₂_same.2 fun selections _ => rfl) ?_
  rintro selections _ rfl
  exact selections.forall₂_declares_collect []

/-- How far the models of a document can be declared as types. -/
structure DeclaresModels (document : Document) : Prop where
  /-- One model for each item, in order. -/
  each : List.Forall₂ (fun item model => Model.Declares model item) document.modelled
    document.flatten.models
  all_iff : (∀ model ∈ document.flatten.models, IsName model.name) ↔
    ∀ item ∈ document.modelled, item.Nameable

theorem declaresModels {document : Document} (h : document.NamesValid) :
    document.DeclaresModels := by
  have hvalid := h.of_mem_modelled
  have heach := ((List.forall₂_and_left _ _).2 ⟨hvalid, document.forall₂_declares⟩).imp
    fun item model hitem => hitem.2 hitem.1
  refine ⟨heach, fun hnames => ?_, fun hnameable => ?_⟩
  · rw [models_flatten, List.forall_mem_flatMap] at hnames
    refine List.forall_mem_flatMap.2 fun selections hselections => ?_
    apply Selections.nameable_of_isName_flatten _ (hnames selections hselections)
    exact List.forall_mem_flatMap.1 hvalid selections hselections
  · intro model hmodel
    obtain ⟨item, hitem, hdeclares⟩ := exists_mem_of_forall₂_right heach hmodel
    exact hdeclares.isName (hnameable item hitem)

/-- The query `{ user { posts { id } } }` with an alias for the user. -/
def aliasedQuery (aliasName : String) : ExecutableDocument where
  source := none
  fragments := .empty
  anonymous := some {
    operationType := .query
    vars := []
    selectsFrom := "Query"
    directives := []
    selections :=
      .field ⟨"user", some aliasName, .named "User", "User", []⟩
        (.field ⟨"posts", none, .list (.named "Post"), "Post", []⟩
          (.field ⟨"id", none, .named "ID", "ID", []⟩ .empty .empty) .empty) .empty
    origin := ⟨none, ""⟩
  }
  named := .empty

section

open NumberReader.Nearest

/-- A key of underscores is named after its type. -/
theorem declaresModels_underscore :
    ∃ document, ofDocuments Schema.postSchema.catalog [aliasedQuery "_"] = .ok document ∧
      document.NamesValid ∧ document.flatten.models.map Model.name = ["User", "Posts"] ∧
      document.DeclaresModels :=
  ⟨_, rfl, by decide, by decide, declaresModels (by decide)⟩

/-- A key with a digit after its underscores is not. -/
theorem exists_modelName_not_isName :
    ∃ document, ofDocuments Schema.postSchema.catalog [aliasedQuery "_1"] = .ok document ∧
      document.NamesValid ∧ document.flatten.models.map Model.name = ["1", "Posts"] ∧
      ¬ ∀ model ∈ document.flatten.models, IsName model.name :=
  ⟨_, rfl, by decide, by decide, by decide⟩

end

end Document

end GraphQLIR
