import GraphQLIR.Proofs.Document.TypeRefs
import GraphQLIR.Proofs.Selection.Flags
/-!
# Derived flags of documents

Operations and documents store flags about their lists. Normalization sets them as the lists demand,
and then all flags are right in the JSON form, at every depth of the selections.
-/

namespace GraphQLIR

open Json

/-! ## Operations and variables -/

namespace OperationType

/-- The flag of this type of operation. -/
def flag : OperationType → String
  | .query => "isQuery"
  | .mutation => "isMutation"
  | .subscription => "isSubscription"

theorem listFlags_members (operationType : OperationType) : ListFlags operationType.members :=
  .of_plain keys rfl (by decide)

@[simp] theorem flagsDerivedBelow_members (operationType : OperationType) :
    FlagsDerivedBelow operationType.members := by
  simp [members]

/-- The flags of an operation do not depend on the members around them. -/
theorem setsOne {operationType : OperationType} {record : Entries Json}
    (h : operationFlags.map record.get? = operationFlags.map operationType.members.get?) :
    SetsOne record operationFlags := by
  have hflags : operationFlags.map operationType.members.get? =
      operationFlags.map fun flag => some (.bool (flag == operationType.flag)) := by
    cases operationType <;> rfl
  refine ⟨operationType.flag, by cases operationType <;> decide, ?_⟩
  exact List.map_inj_left.1 (h.trans hflags)

end OperationType

/-- A record of an operation, which is of no type itself. -/
theorem RecordFlags.of_operation {operationType : OperationType} {record : Entries Json}
    (hlists : ListFlags record)
    (hflags : operationFlags.map record.get? = operationFlags.map operationType.members.get?)
    (hraw : record.get? "raw" = none) (hnullable : record.get? "isNullableArray" = none)
    (hfield : record.get? "isField" = none) : RecordFlags record where
  lists := hlists
  kind := fun h => absurd hraw h
  nullable := fun h => absurd h (not_sets hnullable)
  operation := fun _ => OperationType.setsOne hflags
  leaf := fun h => absurd hraw h
  selections := fun h => absurd h (not_sets hfield)
  model := fun h => absurd hraw h

theorem Variable.flagsDerived {v : Variable} (h : v.type.NullsInArray) : v.toJson.FlagsDerived := by
  rw [toJson, flagsDerived_obj_iff]
  constructor
  · refine .of_type (.cons ?_ (.append ?_ ?_)) (.of_members rfl) h rfl rfl rfl rfl
    · decide
    · exact v.type.listFlags_members
    · exact .single (by decide)
  · simp [freeKeys]

theorem listFlags_variableMembers {vars : List Variable} {hasVars : Bool}
    (h : hasVars = !vars.isEmpty) : ListFlags (variableMembers vars hasVars) :=
  .ofList (by decide) h

theorem flagsDerivedBelow_variableMembers {vars : List Variable} {hasVars : Bool}
    (h : ∀ v ∈ vars, v.type.NullsInArray) : FlagsDerivedBelow (variableMembers vars hasVars) :=
  flagsDerivedBelow_pair fun v hv => Variable.flagsDerived (h v hv)

/-! ## Fragments and operations -/

/-- The flags that go together in a fragment, at every depth. -/
structure Fragment.Flagged (fragment : Fragment) : Prop where
  selections : fragment.selections.Flagged
  directives : fragment.directives.Flagged

/-- The flags that go together in an operation, at every depth. -/
structure Operation.Flagged (operation : Operation) : Prop where
  vars : ∀ v ∈ operation.vars, v.type.NullsInArray
  hasVars_eq : operation.hasVars = !operation.vars.isEmpty
  selections : operation.selections.Flagged
  directives : operation.directives.Flagged

theorem Fragment.Flagged.flagsDerived {fragment : Fragment} (h : fragment.Flagged) :
    fragment.toJson.FlagsDerived := by
  rw [toJson, flagsDerived_obj_iff]
  constructor
  · refine .of_lists (.append (.append (.append ?_ ?_) ?_) ?_) rfl rfl rfl rfl
    · exact .cons (by decide) (.single (by decide))
    · exact Selections.listFlags_itemMembers fragment.selections.encodedItems
    · exact .single (by decide)
    · exact h.directives.listFlags_members
  · simp [h.selections.flagsDerivedBelow_members]

theorem Operation.Flagged.flagsDerived {operation : Operation} (h : operation.Flagged) :
    operation.toJson.FlagsDerived := by
  rw [toJson, flagsDerived_obj_iff]
  constructor
  · refine .of_operation (.append (.append (.append (.append (.append ?_ ?_) ?_) ?_) ?_) ?_)
      rfl rfl rfl rfl
    · exact .single (by decide)
    · exact operation.operationType.listFlags_members
    · exact listFlags_variableMembers h.hasVars_eq
    · exact Selections.listFlags_itemMembers operation.selections.encodedItems
    · exact .single (by decide)
    · exact h.directives.listFlags_members
  · simp [flagsDerivedBelow_variableMembers h.vars, h.selections.flagsDerivedBelow_members]

/-! ## The document -/

/-- Documents, flattened or not, whose flags tell what they have. -/
theorem flagsDerived_document {α β : Type} {fragmentJson : α → Json} {operationJson : β → Json}
    {fragments : List α} {operations : List β} {hasFragments hasOperations : Bool}
    (hfragments : ∀ fragment ∈ fragments, (fragmentJson fragment).FlagsDerived)
    (hoperations : ∀ operation ∈ operations, (operationJson operation).FlagsDerived)
    (hhasFragments : hasFragments = !fragments.isEmpty)
    (hhasOperations : hasOperations = !operations.isEmpty) :
    (Json.obj (documentMembers (.ofList fragmentJson fragments) (.ofList operationJson operations)
      hasFragments hasOperations)).FlagsDerived := by
  rw [flagsDerived_obj_iff, hhasFragments, hhasOperations, ← hasItems_ofList fragmentJson,
    ← hasItems_ofList operationJson]
  constructor
  · exact .of_lists (.of_keys documentKeys rfl (by decide) rfl) rfl rfl rfl rfl
  · simp only [documentMembers, flagsDerivedBelow_cons, flagsDerived_ofList_iff]
    exact ⟨fun _ => hfragments, fun _ => hoperations, fun _ => flagsDerived_bool _,
      fun _ => flagsDerived_bool _, flagsDerivedBelow_nil⟩

namespace Document

/-- The flags that go together in a document, at every depth. -/
structure Flagged (document : Document) : Prop where
  fragments : ∀ fragment ∈ document.fragments, fragment.Flagged
  operations : ∀ operation ∈ document.operations, operation.Flagged
  hasFragments_eq : document.hasFragments = !document.fragments.isEmpty
  hasOperations_eq : document.hasOperations = !document.operations.isEmpty

theorem Flagged.flagsDerived {document : Document} (h : document.Flagged) :
    document.toJson.FlagsDerived :=
  flagsDerived_document (fun fragment hfragment => (h.fragments fragment hfragment).flagsDerived)
    (fun operation hoperation => (h.operations operation hoperation).flagsDerived)
    h.hasFragments_eq h.hasOperations_eq

end Document

/-! ## Accepted documents -/

section

variable [NumberReader] {catalog : Catalog}

theorem FragmentDefinition.flagged_of_normalize_eq_ok {source : Option String} {name : String}
    {definition : FragmentDefinition} {fragment : Fragment}
    (h : definition.normalize catalog source name = .ok fragment) : fragment.Flagged := by
  obtain ⟨selections, hselections, hfragment⟩ := bind_eq_ok_iff.1 h
  rw [← Except.ok.inj hfragment]
  exact {
    selections := WrittenSelections.flagged_of_normalize_eq_ok hselections
    directives := AppliedDirectives.flagged_ofApplications definition.directives
  }

theorem OperationDefinition.flagged_of_normalize_eq_ok {source name : Option String}
    {definition : OperationDefinition} {operation : Operation}
    (h : definition.normalize catalog source name = .ok operation) : operation.Flagged := by
  have hvars : ∀ v ∈ operation.vars, v.type.NullsInArray := fun v hv =>
    (classifies_of_mem_vars h (List.mem_map_of_mem hv)).nullsInArray
  obtain ⟨vars, -, h⟩ := bind_eq_ok_iff.1 h
  obtain ⟨selections, hselections, hoperation⟩ := bind_eq_ok_iff.1 h
  rw [← Except.ok.inj hoperation] at hvars ⊢
  exact {
    vars := hvars
    hasVars_eq := rfl
    selections := WrittenSelections.flagged_of_normalize_eq_ok hselections
    directives := AppliedDirectives.flagged_ofApplications definition.directives
  }

theorem Document.flagged_of_ofDocuments_eq_ok {documents : List ExecutableDocument}
    {document : Document} (h : ofDocuments catalog documents = .ok document) :
    document.Flagged := by
  obtain ⟨fragments, operations, hfragments, hoperations, rfl⟩ := ofDocuments_eq_ok h
  constructor
  case fragments =>
    intro fragment hfragment
    obtain ⟨_, -, hnormal⟩ :=
      exists_mem_of_forall₂_right (mapM_eq_ok_iff.1 hfragments) (mem_of_mem_lastOfEach _ hfragment)
    exact FragmentDefinition.flagged_of_normalize_eq_ok hnormal
  case operations =>
    intro operation hoperation
    obtain ⟨_, -, hnormal⟩ :=
      exists_mem_of_forall₂_right (mapM_eq_ok_iff.1 hoperations) hoperation
    exact OperationDefinition.flagged_of_normalize_eq_ok hnormal
  case hasFragments_eq => rfl
  case hasOperations_eq => rfl

end

end GraphQLIR
