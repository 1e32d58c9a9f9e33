import GraphQLIR.Proofs.Document.Aggregation
import GraphQLIR.Proofs.Selection.Checks
/-!
# Refused documents

Documents are refused just if one of their definitions is, and the first such definition in source
order gives the fault. A definition is refused by the first failing check of its variables, then
of its fields; nothing else in it can be a fault. A fragment counts also if a later definition
overrides it.
-/

namespace GraphQLIR

/-- A fragment or an operation, with the source text of its document and its name. -/
inductive Definition
  | fragment (source : Option String) (name : String) (definition : FragmentDefinition)
  | operation (source : Option String) (name : Option String) (definition : OperationDefinition)

/-! ## One definition -/

def VariableDefinition.bare (definition : VariableDefinition) : VariableDefinition :=
  { definition with default := none }

/-- The fragment without its text, directives, type conditions and names of spreads. -/
def FragmentDefinition.bare (definition : FragmentDefinition) : FragmentDefinition where
  selectsFrom := ""
  directives := []
  selections := definition.selections.bare
  origin := ⟨none, ""⟩

/-- The operation without its text, directives, default values, type conditions and names of
spreads. -/
def OperationDefinition.bare (definition : OperationDefinition) : OperationDefinition where
  operationType := definition.operationType
  vars := definition.vars.map VariableDefinition.bare
  selectsFrom := definition.selectsFrom
  directives := []
  selections := definition.selections.bare
  origin := ⟨none, ""⟩

namespace Definition

/-- What the definition is refused for when it is normalized on its own. -/
def fault? [NumberReader] (catalog : Catalog) : Definition → Option Fault
  | .fragment source name definition => faultOf (definition.normalize catalog source name)
  | .operation source name definition => faultOf (definition.normalize catalog source name)

/-- The types of the variables, then the fields in pre-order. -/
def checks : Definition → List Check
  | .fragment _ _ definition => definition.selections.checks definition.selectsFrom
  | .operation _ _ definition =>
    (definition.vars.map fun v => .varType v.type) ++
      definition.selections.checks definition.selectsFrom

def bare : Definition → Definition
  | .fragment _ name definition => .fragment none name definition.bare
  | .operation _ name definition => .operation none name definition.bare

theorem fault?_eq_findSome?_checks [NumberReader] (catalog : Catalog) (definition : Definition) :
    definition.fault? catalog = definition.checks.findSome? (Check.fault? catalog) := by
  cases definition with
  | fragment source name definition =>
    exact (faultOf_bind_pure _ _).trans (WrittenSelections.faultOf_normalize _ _ _)
  | operation source name definition =>
    have hvars : faultOf (definition.vars.mapM (·.normalize catalog)) =
        (definition.vars.map fun v => Check.varType v.type).findSome? (Check.fault? catalog) := by
      rw [faultOf_mapM, List.findSome?_map]
      congr 1
      funext v
      exact (faultOf_bind_pure _ _).trans (catalog.faultOf_classify v.type)
    rw [checks, List.findSome?_append, ← hvars, ← WrittenSelections.faultOf_normalize]
    exact faultOf_bind fun _ _ => faultOf_bind_pure _ _

theorem checks_bare (definition : Definition) :
    definition.bare.checks.map Check.withoutParent = definition.checks.map Check.withoutParent := by
  cases definition with
  | fragment source name definition => exact WrittenSelections.checks_bare _ _ _
  | operation source name definition =>
    have hvars : definition.bare.vars.map (fun v => Check.varType v.type) =
        definition.vars.map fun v => Check.varType v.type := by
      rw [OperationDefinition.bare, List.map_map]
      rfl
    simp only [bare, checks, List.map_append]
    rw [hvars, OperationDefinition.bare, WrittenSelections.checks_bare _ definition.selectsFrom]

end Definition

/-! ## Whole documents -/

namespace ExecutableDocument

/-- The definitions in source order: all fragments, then all operations. -/
def definitions (document : ExecutableDocument) : List Definition :=
  (document.fragmentDefinitions.map fun (source, name, definition) =>
      Definition.fragment source name definition) ++
    document.operationDefinitions.map fun (source, name, definition) =>
      Definition.operation source name definition

/-- The document with bare definitions and without its source text. -/
def bare (document : ExecutableDocument) : ExecutableDocument where
  source := none
  fragments := document.fragments.map FragmentDefinition.bare
  anonymous := document.anonymous.map OperationDefinition.bare
  named := document.named.map OperationDefinition.bare

theorem definitions_bare (document : ExecutableDocument) :
    document.bare.definitions = document.definitions.map Definition.bare := by
  have hanonymous : document.bare.anonymous.toList =
      document.anonymous.toList.map OperationDefinition.bare := by
    cases h : document.anonymous <;> simp [bare, h]
  simp only [definitions, fragmentDefinitions, operationDefinitions, operations, hanonymous,
    List.map_append, List.map_map]
  simp only [bare, OrderedMap.map, List.map_map]
  rfl

theorem faultOf_normalize [NumberReader] (catalog : Catalog) (document : ExecutableDocument) :
    faultOf (document.normalize catalog) =
      document.definitions.findSome? (Definition.fault? catalog) := by
  unfold definitions fragmentDefinitions operationDefinitions normalize
  rw [List.findSome?_append, List.map_map, List.map_map, List.findSome?_map, List.findSome?_map]
  refine (faultOf_bind fun _ _ => (faultOf_bind_pure _ _).trans (faultOf_mapM _ _)).trans ?_
  rw [faultOf_mapM]
  rfl

end ExecutableDocument

namespace Document

/-- The first fault among checks, apart from where a field is selected from, is that of the checks
without this. -/
theorem map_withoutParent_findSome? (catalog : Catalog) (checks : List Check) :
    (checks.findSome? (Check.fault? catalog)).map Fault.withoutParent =
      (checks.map Check.withoutParent).findSome? (Check.fault? catalog) := by
  rw [List.map_findSome?, List.findSome?_map]
  congr 1
  funext check
  exact (Check.fault?_withoutParent catalog check).symm

section

variable [NumberReader]

theorem faultOf_ofDocuments (catalog : Catalog) (documents : List ExecutableDocument) :
    faultOf (ofDocuments catalog documents) =
      (documents.flatMap ExecutableDocument.definitions).findSome? (Definition.fault? catalog) := by
  rw [findSome?_flatMap]
  refine (faultOf_bind_pure _ _).trans ((faultOf_mapM _ _).trans ?_)
  congr 1
  funext document
  exact document.faultOf_normalize catalog

theorem faultOf_ofDocuments_eq_findSome?_checks (catalog : Catalog)
    (documents : List ExecutableDocument) :
    faultOf (ofDocuments catalog documents) =
      ((documents.flatMap ExecutableDocument.definitions).flatMap Definition.checks).findSome?
        (Check.fault? catalog) := by
  rw [faultOf_ofDocuments, findSome?_flatMap Definition.checks]
  congr 1
  funext definition
  exact definition.fault?_eq_findSome?_checks catalog

/-- The documents are refused for the first fault in source order, if any. -/
structure FailsFirst (catalog : Catalog) (documents : List ExecutableDocument) : Prop where
  accepted_iff : (∃ document, ofDocuments catalog documents = .ok document) ↔
    ∀ definition ∈ documents.flatMap ExecutableDocument.definitions,
      definition.fault? catalog = none
  refused_iff : ∀ fault, ofDocuments catalog documents = .error fault ↔
    ∃ earlier definition later,
      documents.flatMap ExecutableDocument.definitions = earlier ++ definition :: later ∧
      definition.fault? catalog = some fault ∧
      ∀ other ∈ earlier, other.fault? catalog = none
  fault?_eq : ∀ definition ∈ documents.flatMap ExecutableDocument.definitions,
    definition.fault? catalog = definition.checks.findSome? (Check.fault? catalog)
  /-- Source text, directives, default values, type conditions and names of spreads do not matter,
  except that a type condition is named as what a field is selected from. -/
  bare_eq : (faultOf (ofDocuments catalog (documents.map ExecutableDocument.bare))).map
      Fault.withoutParent =
    (faultOf (ofDocuments catalog documents)).map Fault.withoutParent

theorem failsFirst (catalog : Catalog) (documents : List ExecutableDocument) :
    FailsFirst catalog documents where
  accepted_iff := by
    rw [← faultOf_eq_none_iff, faultOf_ofDocuments, List.findSome?_eq_none_iff]
  refused_iff fault := by
    rw [← faultOf_eq_some_iff, faultOf_ofDocuments, List.findSome?_eq_some_iff]
  fault?_eq definition _ := definition.fault?_eq_findSome?_checks catalog
  bare_eq := by
    have hchecks : (((documents.map ExecutableDocument.bare).flatMap
          ExecutableDocument.definitions).flatMap Definition.checks).map Check.withoutParent =
        ((documents.flatMap ExecutableDocument.definitions).flatMap Definition.checks).map
          Check.withoutParent := by
      simp only [List.flatMap_map, ExecutableDocument.definitions_bare, ← List.map_flatMap]
      simp only [List.map_flatMap, Definition.checks_bare]
    rw [faultOf_ofDocuments_eq_findSome?_checks, faultOf_ofDocuments_eq_findSome?_checks,
      map_withoutParent_findSome?, map_withoutParent_findSome?, hchecks]

end

end Document

end GraphQLIR
