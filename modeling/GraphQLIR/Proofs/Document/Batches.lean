import GraphQLIR.Proofs.Document.Aggregation
/-!
# Documents in batches

A list of documents may be aggregated in consecutive batches whose results are put one after the
other. The batches before one that fails do not matter to its fault, and how the list is cut
matters neither to the fault nor to the result.
-/

namespace GraphQLIR

namespace Document

/-- The fragments of `first` that `second` does not define, then everything of `second`. -/
def followedBy (first second : Document) : Document where
  fragments :=
    first.fragments.filter (fun fragment => fragment.name ∉ second.fragments.map Fragment.name) ++
      second.fragments
  operations := first.operations ++ second.operations
  hasFragments := first.hasFragments || second.hasFragments
  hasOperations := first.hasOperations || second.hasOperations

/-! ## The laws of putting documents one after the other -/

theorem mem_names_followedBy (first second : Document) (name : String) :
    name ∈ (first.followedBy second).fragments.map Fragment.name ↔
      name ∈ first.fragments.map Fragment.name ∨ name ∈ second.fragments.map Fragment.name := by
  rw [followedBy, List.map_append, List.mem_append]
  constructor
  · rintro (hfirst | hsecond)
    · obtain ⟨fragment, hfragment, rfl⟩ := List.mem_map.1 hfirst
      exact Or.inl (List.mem_map_of_mem (List.mem_filter.1 hfragment).1)
    · exact Or.inr hsecond
  · rintro (hfirst | hsecond)
    · by_cases hname : name ∈ second.fragments.map Fragment.name
      · exact Or.inr hname
      · obtain ⟨fragment, hfragment, rfl⟩ := List.mem_map.1 hfirst
        exact Or.inl (List.mem_map_of_mem (List.mem_filter.2 ⟨hfragment, by simpa using hname⟩))
    · exact Or.inr hsecond

theorem followedBy_assoc (first second third : Document) :
    (first.followedBy second).followedBy third = first.followedBy (second.followedBy third) := by
  have hfirst : (first.fragments.filter
          (fun fragment => fragment.name ∉ second.fragments.map Fragment.name)).filter
        (fun fragment => fragment.name ∉ third.fragments.map Fragment.name) =
      first.fragments.filter
        (fun fragment => fragment.name ∉ (second.followedBy third).fragments.map Fragment.name) := by
    rw [List.filter_filter]
    apply List.filter_congr
    intro fragment _
    simp only [mem_names_followedBy, not_or, Bool.decide_and, Bool.and_comm]
  rw [followedBy, followedBy, followedBy, List.filter_append, hfirst, List.append_assoc,
    List.append_assoc, Bool.or_assoc, Bool.or_assoc]
  rfl

theorem empty_followedBy (document : Document) : empty.followedBy document = document := rfl

theorem followedBy_empty (document : Document) : document.followedBy empty = document := by
  simp [followedBy, empty]

theorem foldl_followedBy (first : Document) (documents : List Document) :
    documents.foldl followedBy first = first.followedBy (documents.foldl followedBy empty) := by
  induction documents generalizing first with
  | nil => exact (followedBy_empty first).symm
  | cons document rest ih =>
    rw [List.foldl_cons, List.foldl_cons, ih, ih (empty.followedBy document), empty_followedBy,
      followedBy_assoc]

/-! ## Aggregation in batches -/

theorem isEmpty_append {α : Type} (first second : List α) :
    (first ++ second).isEmpty = (first.isEmpty && second.isEmpty) := by
  cases first <;> rfl

/-- Overriding drops fragments only for ones that come after them. -/
theorem isEmpty_foldl_override (first second : List Fragment) :
    (second.foldl Definitions.override first).isEmpty = (first.isEmpty && second.isEmpty) := by
  rcases second.eq_nil_or_concat' with rfl | ⟨earlier, last, rfl⟩
  · simp
  · simp [Definitions.override, isEmpty_append]

/-- Merging parts into definitions comes to the same as putting the document of the parts after
that of the definitions. -/
theorem ofDefinitions_foldl_merge (first : Definitions) (parts : List Definitions) :
    ofDefinitions (parts.foldl Definitions.merge first) =
      (ofDefinitions first).followedBy
        (ofDefinitions (parts.foldl Definitions.merge Definitions.empty)) := by
  have hfirst : first.fragments.filter (fun fragment =>
        fragment.name ∉ (parts.flatMap Definitions.fragments).map Fragment.name) =
      first.fragments.filter fun fragment =>
        fragment.name ∉
          (lastOfEach Fragment.name (parts.flatMap Definitions.fragments)).map Fragment.name := by
    apply List.filter_congr
    intro fragment _
    simp only [mem_map_lastOfEach]
  have hfragments := isEmpty_foldl_override first.fragments (parts.flatMap Definitions.fragments)
  have hparts := isEmpty_foldl_override [] (parts.flatMap Definitions.fragments)
  rw [Definitions.foldl_merge, Definitions.foldl_merge]
  simp only [ofDefinitions, followedBy, Definitions.empty, hfragments, hparts,
    isEmpty_append, List.isEmpty_nil, Bool.true_and, Bool.not_and, List.nil_append]
  rw [Definitions.foldl_override, Definitions.foldl_override, hfirst]
  rfl

section

variable [NumberReader]

theorem ofDocuments_append (catalog : Catalog) (first second : List ExecutableDocument) :
    ofDocuments catalog (first ++ second) = (do
      let before ← ofDocuments catalog first
      let after ← ofDocuments catalog second
      return before.followedBy after) := by
  unfold ofDocuments
  rw [List.mapM_append]
  simp only [bind_assoc, pure_bind]
  congr 1
  funext parts
  congr 1
  funext others
  rw [List.foldl_append, ofDefinitions_foldl_merge]

/-- Aggregates every batch by itself and puts the results one after the other. -/
def ofBatches (catalog : Catalog) (batches : List (List ExecutableDocument)) :
    Except Fault Document := do
  let documents ← batches.mapM (ofDocuments catalog)
  return documents.foldl followedBy empty

theorem ofBatches_eq_ofDocuments_flatten (catalog : Catalog)
    (batches : List (List ExecutableDocument)) :
    ofBatches catalog batches = ofDocuments catalog batches.flatten := by
  induction batches with
  | nil => rfl
  | cons batch rest ih =>
    rw [List.flatten_cons, ofDocuments_append, ← ih, ofBatches, ofBatches, List.mapM_cons]
    simp only [bind_assoc, pure_bind, List.foldl_cons, empty_followedBy]
    congr 1
    funext first
    congr 1
    funext documents
    rw [foldl_followedBy]

/-- What holds of documents that are aggregated for a catalog in batches. -/
structure AggregatesInBatches (catalog : Catalog) : Prop where
  first_fails : ∀ first second fault, ofDocuments catalog first = .error fault →
    ofDocuments catalog (first ++ second) = .error fault
  second_fails : ∀ first second before fault, ofDocuments catalog first = .ok before →
    ofDocuments catalog second = .error fault →
    ofDocuments catalog (first ++ second) = .error fault
  both_succeed : ∀ first second before after, ofDocuments catalog first = .ok before →
    ofDocuments catalog second = .ok after →
    ofDocuments catalog (first ++ second) = .ok (before.followedBy after)
  hasFragments_eq : ∀ before after : Document,
    (before.followedBy after).toJson.member? "hasFragments" =
      some (.bool (before.hasFragments || after.hasFragments))
  hasOperations_eq : ∀ before after : Document,
    (before.followedBy after).toJson.member? "hasOperations" =
      some (.bool (before.hasOperations || after.hasOperations))
  assoc : ∀ first second third : Document,
    (first.followedBy second).followedBy third = first.followedBy (second.followedBy third)
  empty_left : ∀ document : Document, empty.followedBy document = document
  empty_right : ∀ document : Document, document.followedBy empty = document
  /-- However a list is cut into batches, they give its one result or its one fault. -/
  ofBatches_eq : ∀ batches : List (List ExecutableDocument),
    ofBatches catalog batches = ofDocuments catalog batches.flatten

theorem aggregatesInBatches (catalog : Catalog) : AggregatesInBatches catalog where
  first_fails first second fault hfirst := by
    rw [ofDocuments_append, hfirst]
    rfl
  second_fails first second before fault hfirst hsecond := by
    rw [ofDocuments_append, hfirst, hsecond]
    rfl
  both_succeed first second before after hfirst hsecond := by
    rw [ofDocuments_append, hfirst, hsecond]
    rfl
  hasFragments_eq _ _ := rfl
  hasOperations_eq _ _ := rfl
  assoc := followedBy_assoc
  empty_left := empty_followedBy
  empty_right := followedBy_empty
  ofBatches_eq := ofBatches_eq_ofDocuments_flatten catalog

end

end Document

end GraphQLIR
