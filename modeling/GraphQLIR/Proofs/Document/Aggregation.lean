import GraphQLIR.Document.Normal
import GraphQLIR.Proofs.Traversal
import Mathlib.Data.List.Nodup
/-!
# Aggregated documents

The documents of a run count as one sequence of fragment definitions and one of operations.
Aggregation keeps the last definition of every fragment name where it stands in that sequence,
and it keeps every operation.
-/

namespace GraphQLIR

/-! ## Last items by key -/

section LastOfEach

variable {α β : Type} (key : α → String)

/-- Drops every item that a later one with the same key follows. -/
def lastOfEach : List α → List α
  | [] => []
  | item :: later =>
    if key item ∈ later.map key then lastOfEach later else item :: lastOfEach later

theorem mem_map_lastOfEach (items : List α) (name : String) :
    name ∈ (lastOfEach key items).map key ↔ name ∈ items.map key := by
  induction items with
  | nil => rfl
  | cons item later ih =>
    unfold lastOfEach
    by_cases hlater : key item ∈ later.map key
    · rw [if_pos hlater, ih, List.map_cons, List.mem_cons]
      constructor
      · exact Or.inr
      · rintro (rfl | hname)
        · exact hlater
        · exact hname
    · rw [if_neg hlater, List.map_cons, List.map_cons, List.mem_cons, List.mem_cons, ih]

theorem nodup_lastOfEach (items : List α) : ((lastOfEach key items).map key).Nodup := by
  induction items with
  | nil => exact List.nodup_nil
  | cons item later ih =>
    unfold lastOfEach
    by_cases hlater : key item ∈ later.map key
    · rw [if_pos hlater]
      exact ih
    · rw [if_neg hlater, List.map_cons, List.nodup_cons, mem_map_lastOfEach]
      exact ⟨hlater, ih⟩

example : lastOfEach id ["A", "B", "A", "C"] = ["B", "A", "C"] := by decide

theorem mem_of_mem_lastOfEach {items : List α} {item : α} (h : item ∈ lastOfEach key items) :
    item ∈ items := by
  induction items with
  | nil => cases h
  | cons first later ih =>
    unfold lastOfEach at h
    by_cases hlater : key first ∈ later.map key
    · rw [if_pos hlater] at h
      exact List.mem_cons_of_mem _ (ih h)
    · rw [if_neg hlater] at h
      rcases List.mem_cons.1 h with rfl | hrest
      · exact List.mem_cons_self
      · exact List.mem_cons_of_mem _ (ih hrest)

/-- Looking a key up among the last items finds the last item of that key among all. -/
theorem find?_lastOfEach (items : List α) (name : String) :
    (lastOfEach key items).find? (fun item => key item == name) =
      (items.filter fun item => key item == name).getLast? := by
  induction items with
  | nil => rfl
  | cons item later ih =>
    unfold lastOfEach
    by_cases hname : key item = name
    · rw [List.filter_cons_of_pos (by simpa using hname)]
      by_cases hlater : key item ∈ later.map key
      · rw [if_pos hlater, ih]
        obtain ⟨other, hother, hkey⟩ := List.mem_map.1 hlater
        have hmem : other ∈ later.filter fun item => key item == name := by
          rw [List.mem_filter]
          exact ⟨hother, by simpa using hkey.trans hname⟩
        exact (List.getLast?_cons_of_ne_nil (List.ne_nil_of_mem hmem)).symm
      · have hnone : later.filter (fun item => key item == name) = [] := by
          rw [List.filter_eq_nil_iff]
          intro other hother hkey
          have hkey : key other = name := by simpa using hkey
          exact hlater (hname ▸ hkey ▸ List.mem_map_of_mem hother)
        rw [if_neg hlater, hnone, List.find?_cons_of_pos (by simpa using hname)]
        rfl
    · rw [List.filter_cons_of_neg (by simpa using hname), ← ih]
      by_cases hlater : key item ∈ later.map key
      · rw [if_pos hlater]
      · rw [if_neg hlater, List.find?_cons_of_neg (by simpa using hname)]

/-- Items that correspond and have the same keys are kept or dropped together. -/
theorem forall₂_lastOfEach {other : β → String} {R : α → β → Prop}
    (hkey : ∀ a b, R a b → key a = other b) {items : List α} {results : List β}
    (h : List.Forall₂ R items results) :
    List.Forall₂ R (lastOfEach key items) (lastOfEach other results) := by
  induction h with
  | nil => exact .nil
  | @cons item result later laterResults hitem hlater ih =>
    have hkeys : later.map key = laterResults.map other := map_eq_map_of_forall₂ (hlater.imp hkey)
    unfold lastOfEach
    rw [hkey item result hitem, hkeys]
    split
    · exact ih
    · exact .cons hitem ih

end LastOfEach

namespace ExecutableDocument

/-- The fragment definitions, each with the source text of the document and its name. -/
def fragmentDefinitions (document : ExecutableDocument) :
    List (Option String × String × FragmentDefinition) :=
  document.fragments.entries.map fun (name, definition) => (document.source, name, definition)

/-- The operation definitions, each with the source text of the document and its name. -/
def operationDefinitions (document : ExecutableDocument) :
    List (Option String × Option String × OperationDefinition) :=
  document.operations.map fun (name, definition) => (document.source, name, definition)

end ExecutableDocument

namespace Document

theorem fragment?_eq_none_iff_notMem (document : Document) (name : String) :
    document.fragment? name = none ↔ name ∉ document.fragments.map Fragment.name := by
  rw [fragment?, List.find?_eq_none, List.mem_map, not_exists]
  simp only [beq_iff_eq, not_and]

section

variable [NumberReader]

/-- All fragment definitions of the documents in order, each normalized. -/
def normalizedFragments (catalog : Catalog) (documents : List ExecutableDocument) :
    Except Fault (List Fragment) :=
  (documents.flatMap ExecutableDocument.fragmentDefinitions).mapM
    fun (source, name, definition) => definition.normalize catalog source name

/-- All operation definitions of the documents in order, each normalized. -/
def normalizedOperations (catalog : Catalog) (documents : List ExecutableDocument) :
    Except Fault (List Operation) :=
  (documents.flatMap ExecutableDocument.operationDefinitions).mapM
    fun (source, name, definition) => definition.normalize catalog source name

end

end Document

namespace Definitions

/-- Overriding by several fragments drops the earlier ones of their names. -/
theorem foldl_override (first second : List Fragment) :
    second.foldl override first =
      first.filter (fun fragment => fragment.name ∉ second.map Fragment.name) ++
        lastOfEach Fragment.name second := by
  induction second generalizing first with
  | nil => simp [lastOfEach]
  | cons fragment later ih =>
    have hfirst : (first.filter fun earlier => earlier.name != fragment.name).filter
          (fun earlier => earlier.name ∉ later.map Fragment.name) =
        first.filter fun earlier => earlier.name ∉ (fragment :: later).map Fragment.name := by
      rw [List.filter_filter]
      apply List.filter_congr
      intro earlier _
      by_cases hearlier : earlier.name = fragment.name <;> simp [hearlier]
    rw [List.foldl_cons, ih, override, List.filter_append, hfirst, List.append_assoc, lastOfEach]
    by_cases hlater : fragment.name ∈ later.map Fragment.name
    · rw [if_pos hlater, List.filter_cons_of_neg (by simpa using hlater)]
      rfl
    · rw [if_neg hlater, List.filter_cons_of_pos (by simpa using hlater)]
      rfl

theorem foldl_merge (first : Definitions) (parts : List Definitions) :
    parts.foldl merge first =
      ⟨(parts.flatMap Definitions.fragments).foldl override first.fragments,
        first.operations ++ parts.flatMap Definitions.operations⟩ := by
  induction parts generalizing first with
  | nil => simp
  | cons part rest ih =>
    rw [List.foldl_cons, ih, merge, List.flatMap_cons, List.flatMap_cons, List.foldl_append,
      List.append_assoc]

end Definitions

/-! ## Aggregation -/

section

variable [NumberReader]

namespace ExecutableDocument

theorem normalize_eq_ok_iff {catalog : Catalog} {document : ExecutableDocument}
    {part : Definitions} :
    document.normalize catalog = .ok part ↔
      List.Forall₂ (fun written fragment =>
          FragmentDefinition.normalize catalog written.1 written.2.1 written.2.2 = .ok fragment)
        document.fragmentDefinitions part.fragments ∧
      List.Forall₂ (fun written operation =>
          OperationDefinition.normalize catalog written.1 written.2.1 written.2.2 = .ok operation)
        document.operationDefinitions part.operations := by
  unfold fragmentDefinitions operationDefinitions normalize
  rw [List.forall₂_map_left_iff, List.forall₂_map_left_iff, ← mapM_eq_ok_iff, ← mapM_eq_ok_iff]
  simp only [bind_eq_ok_iff]
  constructor
  · rintro ⟨fragments, hfragments, operations, hoperations, hpart⟩
    cases hpart
    exact ⟨hfragments, hoperations⟩
  · rintro ⟨hfragments, hoperations⟩
    exact ⟨_, hfragments, _, hoperations, rfl⟩

end ExecutableDocument

theorem FragmentDefinition.normalize_eq_ok {catalog : Catalog} {source : Option String}
    {name : String} {definition : FragmentDefinition} {fragment : Fragment}
    (h : definition.normalize catalog source name = .ok fragment) :
    fragment.name = name ∧
      definition.selections.normalize catalog definition.selectsFrom = .ok fragment.selections := by
  obtain ⟨selections, hselections, hfragment⟩ := bind_eq_ok_iff.1 h
  rw [← Except.ok.inj hfragment]
  exact ⟨rfl, hselections⟩

theorem OperationDefinition.normalize_eq_ok {catalog : Catalog} {source name : Option String}
    {definition : OperationDefinition} {operation : Operation}
    (h : definition.normalize catalog source name = .ok operation) :
    operation.name = name ∧
      definition.selections.normalize catalog definition.selectsFrom =
        .ok operation.selections := by
  obtain ⟨vars, -, h⟩ := bind_eq_ok_iff.1 h
  obtain ⟨selections, hselections, hoperation⟩ := bind_eq_ok_iff.1 h
  rw [← Except.ok.inj hoperation]
  exact ⟨rfl, hselections⟩

namespace Document

variable {catalog : Catalog} {documents : List ExecutableDocument} {document : Document}

/-- What an accepted list of documents is aggregated from. -/
theorem ofDocuments_eq_ok (h : ofDocuments catalog documents = .ok document) :
    ∃ fragments operations, normalizedFragments catalog documents = .ok fragments ∧
      normalizedOperations catalog documents = .ok operations ∧
      document = ofDefinitions ⟨lastOfEach Fragment.name fragments, operations⟩ := by
  obtain ⟨parts, hparts, hdocument⟩ := bind_eq_ok_iff.1 h
  have hparts := mapM_eq_ok_iff.1 hparts
  refine ⟨parts.flatMap Definitions.fragments, parts.flatMap Definitions.operations, ?_, ?_, ?_⟩
  · refine mapM_eq_ok_iff.2 (List.rel_flatMap hparts fun source part hpart => ?_)
    exact (ExecutableDocument.normalize_eq_ok_iff.1 hpart).1
  · refine mapM_eq_ok_iff.2 (List.rel_flatMap hparts fun source part hpart => ?_)
    exact (ExecutableDocument.normalize_eq_ok_iff.1 hpart).2
  · rw [← Except.ok.inj hdocument, Definitions.foldl_merge, Definitions.foldl_override]
    rfl

theorem map_name_normalizedFragments {fragments : List Fragment}
    (h : normalizedFragments catalog documents = .ok fragments) :
    fragments.map Fragment.name = documents.flatMap fun source => source.fragments.keys := by
  have hnames := map_eq_map_of_forall₂ <| (mapM_eq_ok_iff.1 h).imp
    fun written fragment hnormal => (FragmentDefinition.normalize_eq_ok hnormal).1.symm
  rw [← hnames, List.map_flatMap]
  congr 1
  funext source
  rw [ExecutableDocument.fragmentDefinitions, List.map_map]
  rfl

/-- Of these definitions, `document` holds the last one of each fragment name, where it stands,
and all operations. -/
structure HoldsLast (documents : List ExecutableDocument) (fragments : List Fragment)
    (operations : List Operation) (document : Document) : Prop where
  fragments_eq : document.fragments = lastOfEach Fragment.name fragments
  names_nodup : (document.fragments.map Fragment.name).Nodup
  fragment?_eq : ∀ name,
    document.fragment? name = (fragments.filter fun fragment => fragment.name == name).getLast?
  fragment?_eq_none_iff : ∀ name,
    document.fragment? name = none ↔ ∀ source ∈ documents, name ∉ source.fragments.keys
  operations_eq : document.operations = operations

/-- In an accepted list of documents every definition is normalized, and the last one of each
fragment name counts. -/
theorem ofDocuments_holdsLast (h : ofDocuments catalog documents = .ok document) :
    ∃ fragments operations, normalizedFragments catalog documents = .ok fragments ∧
      normalizedOperations catalog documents = .ok operations ∧
      HoldsLast documents fragments operations document := by
  obtain ⟨fragments, operations, hfragments, hoperations, rfl⟩ := ofDocuments_eq_ok h
  refine ⟨fragments, operations, hfragments, hoperations, ?_⟩
  have hfind := find?_lastOfEach Fragment.name fragments
  exact {
    fragments_eq := rfl
    names_nodup := nodup_lastOfEach Fragment.name fragments
    fragment?_eq := hfind
    fragment?_eq_none_iff := by
      intro name
      rw [fragment?_eq_none_iff_notMem, ofDefinitions, mem_map_lastOfEach,
        map_name_normalizedFragments hfragments, List.mem_flatMap]
      push Not
      rfl
    operations_eq := rfl
  }

end Document

end

section

open NumberReader.Nearest

namespace Document

/-- Two documents define a fragment `A`, the first of them ahead of a fragment `B`. -/
def redefinition : List ExecutableDocument :=
  let written (spread : String) : FragmentDefinition :=
    { selectsFrom := "User"
      directives := []
      selections := .spread ⟨spread, []⟩ .empty
      origin := ⟨none, ""⟩ }
  [⟨none, .ofList [("A", written "B"), ("B", written "C")], none, .empty⟩,
    ⟨none, .ofList [("A", written "C")], none, .empty⟩]

theorem ofDocuments_redefinition :
    ∃ document, ofDocuments .empty redefinition = .ok document ∧
      document.fragments.map Fragment.name = ["B", "A"] ∧
      ∃ fragments operations, normalizedFragments .empty redefinition = .ok fragments ∧
        normalizedOperations .empty redefinition = .ok operations ∧
        HoldsLast redefinition fragments operations document :=
  ⟨_, rfl, rfl, ofDocuments_holdsLast rfl⟩

end Document

end

end GraphQLIR
