import GraphQLIR.Proofs.Document.Aggregation
import GraphQLIR.Proofs.Model.Forest
import GraphQLIR.Proofs.Model.Listing
import GraphQLIR.Proofs.Selection.Normalization
/-!
# Models of written selections

Normalization decides by the type of a field whether it has selections of its own, and a document
by whether they were written. Both agree in an accepted document, so its models are those of the
inline fragments and of the fields that were written with selections.
-/

namespace GraphQLIR

abbrev WrittenSelection := SelectionItem WrittenField WrittenSpread WrittenInline

namespace WrittenSelection

/-- Whether this is an inline fragment, or a field with selections. -/
def isNested : WrittenSelection → Bool
  | .field _ selections => !selections.isEmpty
  | .spread _ => false
  | .inline _ _ => true

/-- The normalized form of an item with selections. -/
inductive NormalizesTo [NumberReader] (catalog : Catalog) : WrittenSelection → Selection → Prop
  | field {field : WrittenField} {type : TypeRef} {written : WrittenSelections}
    {normal : Selections} (htype : catalog.classify field.type = .ok type)
    (hempty : written.isEmpty = false)
    (hnormal : written.normalize catalog field.selectsFrom = .ok normal) :
    NormalizesTo catalog (.field field written) (.field (field.normalNode type) normal)
  | inline {inline : WrittenInline} {written : WrittenSelections} {normal : Selections}
    (hnormal : written.normalize catalog inline.selectsFrom = .ok normal) :
    NormalizesTo catalog (.inline inline written) (.inline inline.normalNode normal)

end WrittenSelection

/-- The items at every depth that have selections, each ahead of those below it. -/
def WrittenSelections.nested (written : WrittenSelections) : List WrittenSelection :=
  written.preorder.filter WrittenSelection.isNested

section

variable [NumberReader]

/-- Just the items that were written with selections have a model after normalization. -/
theorem WrittenSelections.forall₂_modelled {catalog : Catalog} {parent : String}
    {written : WrittenSelections} {normal : Selections}
    (h : written.normalize catalog parent = .ok normal) :
    List.Forall₂ (WrittenSelection.NormalizesTo catalog) written.nested normal.modelled := by
  unfold nested
  induction written generalizing parent normal with
  | empty =>
    cases h
    exact .nil
  | field field selections rest ihbelow ihlater =>
    obtain ⟨type, below, later, htype, hleaf, hbelow, hlater, rfl⟩ := normalize_field_eq_ok h
    have hleaf : (field.normalNode type).isLeaf = selections.isEmpty := hleaf
    rw [SelectionSet.preorder, Selections.modelled, hleaf]
    cases hempty : selections.isEmpty with
    | true =>
      rw [SelectionSet.isEmpty_eq_true_iff.1 hempty]
      exact ihlater hlater
    | false =>
      rw [List.filter_cons_of_pos (by simp [WrittenSelection.isNested, hempty]),
        List.filter_append, if_neg Bool.false_ne_true]
      exact .cons (.field htype hempty hbelow) (List.rel_append (ihbelow hbelow) (ihlater hlater))
  | spread spread rest ih =>
    obtain ⟨later, hlater, rfl⟩ := normalize_spread_eq_ok h
    rw [SelectionSet.preorder, Selections.modelled,
      List.filter_cons_of_neg (by simp [WrittenSelection.isNested])]
    exact ih hlater
  | inline inline selections rest ihbelow ihlater =>
    obtain ⟨below, later, hbelow, hlater, rfl⟩ := normalize_inline_eq_ok h
    rw [SelectionSet.preorder, Selections.modelled, List.filter_cons_of_pos rfl,
      List.filter_append]
    exact .cons (.inline hbelow) (List.rel_append (ihbelow hbelow) (ihlater hlater))

/-! ## Models and written items -/

/-- A level has the items of written selections, kind by kind and in order, each normalized. -/
structure ModelLevel.ListsWritten (catalog : Catalog) (level : ModelLevel)
    (written : WrittenSelections) : Prop where
  fields : List.Forall₂ (fun field (modelField : ModelField) =>
      ∃ type, catalog.classify field.type = .ok type ∧ modelField.node = field.normalNode type)
    written.fieldNodes level.fields
  spreads : level.spreads = written.spreadNodes.map WrittenSpread.normalNode
  inlines : level.inlines.map ModelInline.node = written.inlineNodes.map WrittenInline.normalNode

theorem ModelLevel.Lists.listsWritten {catalog : Catalog} {level : ModelLevel}
    {written : WrittenSelections} {normal : Selections} (hlevel : level.Lists normal)
    (hnormal : written.NormalizeTo catalog normal) : level.ListsWritten catalog written where
  fields := by
    have hfields := hnormal.fields
    rw [← hlevel.fields, List.forall₂_map_right_iff] at hfields
    exact hfields
  spreads := hlevel.spreads.trans hnormal.spreads
  inlines := hlevel.inlines.trans hnormal.inlines

theorem ModelLevel.ListsWritten.ne_nil {catalog : Catalog} {level : ModelLevel}
    {written : WrittenSelections} (h : level.ListsWritten catalog written)
    (hwritten : written ≠ .empty) :
    level.fields ≠ [] ∨ level.spreads ≠ [] ∨ level.inlines ≠ [] := by
  have hlength := congrArg List.length h.inlines
  rw [List.length_map, List.length_map] at hlength
  rcases SelectionSet.nodes_ne_nil hwritten with hfields | hspreads | hinlines
  · left
    rw [← List.length_pos_iff, ← h.fields.length_eq]
    exact List.length_pos_iff.2 hfields
  · right; left
    rw [h.spreads]
    exact fun hnil => hspreads (List.map_eq_nil_iff.1 hnil)
  · right; right
    rw [← List.length_pos_iff, hlength]
    exact List.length_pos_iff.2 hinlines

/-- The model stands for the selections of this written item. -/
inductive Model.IsOfWritten (catalog : Catalog) (model : Model) : WrittenSelection → Prop
  | field {field : WrittenField} {selections : WrittenSelections}
    (baseType : model.baseType = field.type.innermost)
    (level : model.level.ListsWritten catalog selections)
    (nonempty : model.level.fields ≠ [] ∨ model.level.spreads ≠ [] ∨ model.level.inlines ≠ []) :
    IsOfWritten catalog model (.field field selections)
  | inline {inline : WrittenInline} {selections : WrittenSelections}
    (baseType : model.baseType = inline.selectsFrom)
    (level : model.level.ListsWritten catalog selections) :
    IsOfWritten catalog model (.inline inline selections)

theorem Model.IsOf.isOfWritten {catalog : Catalog} {model : Model} {written : WrittenSelection}
    {normal : Selection} (h : model.IsOf normal)
    (hnormal : WrittenSelection.NormalizesTo catalog written normal) :
    model.IsOfWritten catalog written := by
  cases hnormal with
  | @field field type selections normal htype hempty hnormal =>
    cases h with
    | field hbase hlevel =>
      have hlists := hlevel.listsWritten (WrittenSelections.normalizeTo_of_normalize_eq_ok hnormal)
      have hwritten : selections ≠ .empty := by
        intro heq
        rw [heq] at hempty
        cases hempty
      have hname : model.baseType = field.type.innermost :=
        hbase.trans (Catalog.classify_eq_ok htype).1
      exact .field hname hlists (hlists.ne_nil hwritten)
  | inline hnormal =>
    cases h with
    | inline hbase hlevel =>
      have hlists := hlevel.listsWritten (WrittenSelections.normalizeTo_of_normalize_eq_ok hnormal)
      exact .inline hbase hlists

/-- The models are those of the written items with selections, one for one and in pre-order. -/
def WrittenSelections.HaveModels (catalog : Catalog) (written : WrittenSelections)
    (models : List Model) : Prop :=
  List.Forall₂ (fun item model => Model.IsOfWritten catalog model item) written.nested models

theorem WrittenSelections.haveModels {catalog : Catalog} {parent : String}
    {written : WrittenSelections} {normal : Selections}
    (h : written.normalize catalog parent = .ok normal) :
    written.HaveModels catalog normal.flatten.2 :=
  forall₂_trans (fun _ _ _ hnormal hmodel => hmodel.isOfWritten hnormal)
    (forall₂_modelled h) (Selections.forall₂_isOf_collect [] normal)

namespace Document

/-- The models of each operation, and of the last definition of each fragment name, are those of
its written selections. -/
structure HoldsModels (catalog : Catalog) (documents : List ExecutableDocument)
    (document : Document) : Prop where
  fragments : List.Forall₂ (fun written fragment => fragment.name = written.2.1 ∧
      WrittenSelections.HaveModels catalog
        (FragmentDefinition.selections written.2.2) (Fragment.flatten fragment).models)
    (lastOfEach (fun written => written.2.1)
      (documents.flatMap ExecutableDocument.fragmentDefinitions))
    document.fragments
  operations : List.Forall₂ (fun written operation => operation.name = written.2.1 ∧
      WrittenSelections.HaveModels catalog
        (OperationDefinition.selections written.2.2) (Operation.flatten operation).models)
    (documents.flatMap ExecutableDocument.operationDefinitions) document.operations

/-- Documents that are accepted for a schema have the models of what was written in them. -/
theorem ofDocuments_holdsModels {schema : Schema} {documents : List ExecutableDocument}
    {document : Document} (h : ofDocuments schema.catalog documents = .ok document) :
    HoldsModels schema.catalog documents document := by
  obtain ⟨fragments, operations, hfragments, hoperations, rfl⟩ := ofDocuments_eq_ok h
  constructor
  · refine forall₂_lastOfEach _ (fun written fragment hfragment => hfragment.1.symm) ?_
    refine (mapM_eq_ok_iff.1 hfragments).imp fun written fragment hnormal => ?_
    obtain ⟨hname, hselections⟩ := FragmentDefinition.normalize_eq_ok hnormal
    exact ⟨hname, WrittenSelections.haveModels hselections⟩
  · refine (mapM_eq_ok_iff.1 hoperations).imp fun written operation hnormal => ?_
    obtain ⟨hname, hselections⟩ := OperationDefinition.normalize_eq_ok hnormal
    exact ⟨hname, WrittenSelections.haveModels hselections⟩

end Document

end

namespace Document

/-- An object type and a scalar. -/
def userSchema : Schema where
  directives := []
  types := .ofList [("User", ⟨none, false, [], .object .empty .empty⟩),
    ("ID", ⟨none, true, [], .scalar⟩)]
  directiveDefinitions := .empty

/-- The query `{ user { id ... on User { id } } }`. -/
def userQuery : ExecutableDocument where
  source := none
  fragments := .empty
  anonymous := some {
    operationType := .query
    vars := []
    selectsFrom := "Query"
    directives := []
    selections :=
      let id : WrittenField := ⟨"id", none, .nonNullNamed "ID", "ID", []⟩
      .field ⟨"user", none, .named "User", "User", []⟩
        (.field id .empty (.inline ⟨"User", true, []⟩ (.field id .empty .empty) .empty)) .empty
    origin := ⟨none, ""⟩
  }
  named := .empty

section

open NumberReader.Nearest

theorem ofDocuments_userQuery :
    ∃ document, ofDocuments userSchema.catalog [userQuery] = .ok document ∧
      (document.operations.flatMap fun operation => operation.flatten.models.map Model.reference) =
        [⟨"User", "User"⟩, ⟨"OnUser", "User"⟩] ∧
      HoldsModels userSchema.catalog [userQuery] document :=
  ⟨_, rfl, rfl, ofDocuments_holdsModels rfl⟩

end

end Document

end GraphQLIR
