import GraphQLIR.Proofs.Document.Aggregation
import GraphQLIR.Proofs.Record.Normalization
import GraphQLIR.Proofs.Selection.Listing
import GraphQLIR.Proofs.Selection.Normalization
/-!
# The types in a document

A normalized document refers to types by its fields, at every depth, and by its variables. All of
them are declared, as of the kinds that the document has for them.
-/

namespace GraphQLIR

/-- The types of the fields at every depth. -/
def Selections.typeRefs (selections : Selections) : List TypeRef :=
  selections.preorder.filterMap fun item => item.field?.map fun field => field.1.type

/-- The types of the fields of fragments and operations at every depth, and of variables. -/
def Document.typeRefs (document : Document) : List TypeRef :=
  (document.fragments.flatMap fun fragment => fragment.selections.typeRefs) ++
    document.operations.flatMap fun operation =>
      operation.vars.map Variable.type ++ operation.selections.typeRefs

section

variable [NumberReader]

theorem WrittenSelections.classifies_of_mem_typeRefs {catalog : Catalog} {parent : String}
    {written : WrittenSelections} {normal : Selections}
    (h : written.normalize catalog parent = .ok normal) {type : TypeRef}
    (htype : type ∈ normal.typeRefs) : catalog.Classifies type := by
  induction written generalizing parent normal with
  | empty =>
    cases h
    cases htype
  | field field selections rest ihbelow ihlater =>
    obtain ⟨classified, below, later, hclassify, -, hbelow, hlater, rfl⟩ := normalize_field_eq_ok h
    simp only [Selections.typeRefs, SelectionSet.preorder, List.filterMap_cons,
      List.filterMap_append, SelectionItem.field?, Option.map_some, List.mem_cons,
      List.mem_append] at htype
    rcases htype with rfl | hin | hin
    · exact ⟨_, hclassify⟩
    · exact ihbelow hbelow hin
    · exact ihlater hlater hin
  | spread spread rest ih =>
    obtain ⟨later, hlater, rfl⟩ := normalize_spread_eq_ok h
    exact ih hlater htype
  | inline inline selections rest ihbelow ihlater =>
    obtain ⟨below, later, hbelow, hlater, rfl⟩ := normalize_inline_eq_ok h
    simp only [Selections.typeRefs, SelectionSet.preorder, List.filterMap_cons,
      List.filterMap_append, SelectionItem.field?, Option.map_none, List.mem_append] at htype
    rcases htype with hin | hin
    · exact ihbelow hbelow hin
    · exact ihlater hlater hin

theorem OperationDefinition.classifies_of_mem_vars {catalog : Catalog} {source name : Option String}
    {definition : OperationDefinition} {operation : Operation}
    (h : definition.normalize catalog source name = .ok operation) {type : TypeRef}
    (htype : type ∈ operation.vars.map Variable.type) : catalog.Classifies type := by
  obtain ⟨vars, hvars, h⟩ := bind_eq_ok_iff.1 h
  obtain ⟨selections, -, hoperation⟩ := bind_eq_ok_iff.1 h
  rw [← Except.ok.inj hoperation] at htype
  obtain ⟨v, hv, rfl⟩ := List.mem_map.1 htype
  obtain ⟨written, -, hwritten⟩ := exists_mem_of_forall₂_right (mapM_eq_ok_iff.1 hvars) hv
  obtain ⟨classified, hclassify, hv⟩ := bind_eq_ok_iff.1 hwritten
  rw [← Except.ok.inj hv]
  exact ⟨_, hclassify⟩

theorem Document.classifies_of_mem_typeRefs {catalog : Catalog}
    {documents : List ExecutableDocument} {document : Document}
    (h : ofDocuments catalog documents = .ok document) {type : TypeRef}
    (htype : type ∈ document.typeRefs) : catalog.Classifies type := by
  obtain ⟨fragments, operations, hfragments, hoperations, rfl⟩ := ofDocuments_eq_ok h
  rcases List.mem_append.1 htype with hin | hin
  · obtain ⟨fragment, hfragment, htype⟩ := List.mem_flatMap.1 hin
    obtain ⟨written, -, hwritten⟩ :=
      exists_mem_of_forall₂_right (mapM_eq_ok_iff.1 hfragments) (mem_of_mem_lastOfEach _ hfragment)
    exact WrittenSelections.classifies_of_mem_typeRefs
      (FragmentDefinition.normalize_eq_ok hwritten).2 htype
  · obtain ⟨operation, hoperation, htype⟩ := List.mem_flatMap.1 hin
    obtain ⟨written, -, hwritten⟩ :=
      exists_mem_of_forall₂_right (mapM_eq_ok_iff.1 hoperations) hoperation
    rcases List.mem_append.1 htype with hvar | hfield
    · exact OperationDefinition.classifies_of_mem_vars hwritten hvar
    · exact WrittenSelections.classifies_of_mem_typeRefs
        (OperationDefinition.normalize_eq_ok hwritten).2 hfield

theorem Document.knows_of_mem_typeRefs {catalog : Catalog} {documents : List ExecutableDocument}
    {document : Document} (h : ofDocuments catalog documents = .ok document) {type : TypeRef}
    (htype : type ∈ document.typeRefs) : catalog.Knows type :=
  (classifies_of_mem_typeRefs h htype).knows

end

end GraphQLIR
