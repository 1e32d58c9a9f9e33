import GraphQLIR.Proofs.Schema.Routing
/-!
# What documents depend on

A schema is consulted for the kinds of the type names that the documents mention, and for nothing
else. Schemas that agree on these kinds give the same document or the same fault, so the order of
the types, their members, their directives, their marks and all types that are not mentioned are
without effect.
-/

namespace GraphQLIR

/-! ## Mentioned names -/

/-- The innermost types of the fields at every depth. -/
def WrittenSelections.typeNames (written : WrittenSelections) : List String :=
  written.preorder.filterMap fun item => item.field?.map fun field => field.1.type.innermost

theorem WrittenSelections.typeNames_field (field : WrittenField)
    (selections rest : WrittenSelections) :
    typeNames (.field field selections rest) =
      field.type.innermost :: (selections.typeNames ++ rest.typeNames) := by
  simp only [typeNames, SelectionSet.preorder, List.filterMap_cons, List.filterMap_append,
    SelectionItem.field?, Option.map_some]

theorem WrittenSelections.typeNames_inline (inline : WrittenInline)
    (selections rest : WrittenSelections) :
    typeNames (.inline inline selections rest) = selections.typeNames ++ rest.typeNames := by
  simp only [typeNames, SelectionSet.preorder, List.filterMap_cons, List.filterMap_append,
    SelectionItem.field?, Option.map_none]

/-- The innermost types of the variables, then of the fields. -/
def OperationDefinition.typeNames (definition : OperationDefinition) : List String :=
  (definition.vars.map fun v => v.type.innermost) ++ definition.selections.typeNames

/-- The innermost types of the fields of fragments and operations at every depth, and of
variables. -/
def ExecutableDocument.typeNames (document : ExecutableDocument) : List String :=
  (document.fragments.entries.flatMap fun (_, definition) => definition.selections.typeNames) ++
    document.operations.flatMap fun (_, definition) => definition.typeNames

/-- The kind under which a schema declares a type, if it does. -/
def Schema.kind? (schema : Schema) (name : String) : Option TypeKind :=
  (schema.types.get? name).map fun definition => definition.body.kind

/-! ## Catalogs that agree on the mentioned names -/

namespace Catalog

/-- Both catalogs have these names with the same kinds, or both do not have them. -/
def AgreeOn (first second : Catalog) (names : List String) : Prop :=
  ∀ name ∈ names, first.get? name = second.get? name

theorem AgreeOn.subset {first second : Catalog} {names others : List String}
    (h : first.AgreeOn second names) (hsubset : others ⊆ names) : first.AgreeOn second others :=
  fun name hname => h name (hsubset hname)

end Catalog

section

variable {first second : Catalog}

theorem WrittenField.check_congr {field : WrittenField}
    (h : first.get? field.type.innermost = second.get? field.type.innermost) (parent : String)
    (hasSelections : Bool) :
    field.check first parent hasSelections = field.check second parent hasSelections := by
  unfold check
  rw [Catalog.classify_congr h]

variable [NumberReader]

theorem WrittenSelections.normalize_congr {written : WrittenSelections}
    (h : first.AgreeOn second written.typeNames) (parent : String) :
    written.normalize first parent = written.normalize second parent := by
  induction written generalizing parent with
  | empty => rfl
  | field field selections rest ihbelow ihlater =>
    rw [typeNames_field] at h
    have hself := h _ List.mem_cons_self
    have hbelow : first.AgreeOn second (typeNames selections) :=
      h.subset fun _ hname => List.mem_cons_of_mem _ (List.mem_append_left _ hname)
    have hlater : first.AgreeOn second (typeNames rest) :=
      h.subset fun _ hname => List.mem_cons_of_mem _ (List.mem_append_right _ hname)
    unfold normalize
    rw [WrittenField.check_congr hself, ihbelow hbelow, ihlater hlater]
  | spread spread rest ih =>
    have hlater : first.AgreeOn second (typeNames rest) := h
    unfold normalize
    rw [ih hlater]
  | inline inline selections rest ihbelow ihlater =>
    rw [typeNames_inline] at h
    have hbelow : first.AgreeOn second (typeNames selections) :=
      h.subset (List.subset_append_left _ _)
    have hlater : first.AgreeOn second (typeNames rest) := h.subset (List.subset_append_right _ _)
    unfold normalize
    rw [ihbelow hbelow, ihlater hlater]

theorem FragmentDefinition.normalize_congr {definition : FragmentDefinition}
    (h : first.AgreeOn second definition.selections.typeNames) (source : Option String)
    (name : String) :
    definition.normalize first source name = definition.normalize second source name := by
  unfold normalize
  rw [WrittenSelections.normalize_congr h]

theorem OperationDefinition.normalize_congr {definition : OperationDefinition}
    (h : first.AgreeOn second definition.typeNames) (source name : Option String) :
    definition.normalize first source name = definition.normalize second source name := by
  have hvars : definition.vars.mapM (·.normalize first) =
      definition.vars.mapM (·.normalize second) := by
    apply mapM_congr
    intro v hv
    have hname : v.type.innermost ∈ definition.typeNames :=
      List.mem_append_left _ (List.mem_map_of_mem hv)
    unfold VariableDefinition.normalize
    rw [Catalog.classify_congr (h _ hname)]
  have hselections : first.AgreeOn second definition.selections.typeNames :=
    h.subset (List.subset_append_right _ _)
  unfold normalize
  rw [hvars, WrittenSelections.normalize_congr hselections]

theorem ExecutableDocument.normalize_congr {document : ExecutableDocument}
    (h : first.AgreeOn second document.typeNames) :
    document.normalize first = document.normalize second := by
  have hfragments : (document.fragments.entries.mapM fun (name, definition) =>
        definition.normalize first document.source name) =
      document.fragments.entries.mapM fun (name, definition) =>
        definition.normalize second document.source name := by
    apply mapM_congr
    intro entry hentry
    apply FragmentDefinition.normalize_congr
    exact h.subset fun name hname =>
      List.mem_append_left _ (List.mem_flatMap.2 ⟨entry, hentry, hname⟩)
  have hoperations : (document.operations.mapM fun (name, definition) =>
        definition.normalize first document.source name) =
      document.operations.mapM fun (name, definition) =>
        definition.normalize second document.source name := by
    apply mapM_congr
    intro entry hentry
    apply OperationDefinition.normalize_congr
    exact h.subset fun name hname =>
      List.mem_append_right _ (List.mem_flatMap.2 ⟨entry, hentry, hname⟩)
  unfold normalize
  rw [hfragments, hoperations]

theorem Document.ofDocuments_congr {documents : List ExecutableDocument}
    (h : first.AgreeOn second (documents.flatMap ExecutableDocument.typeNames)) :
    ofDocuments first documents = ofDocuments second documents := by
  have hparts : documents.mapM (·.normalize first) = documents.mapM (·.normalize second) := by
    apply mapM_congr
    intro document hdocument
    apply ExecutableDocument.normalize_congr
    exact h.subset fun name hname => List.mem_flatMap.2 ⟨document, hdocument, hname⟩
  unfold ofDocuments
  rw [hparts]

end

/-! ## Schemas -/

namespace Schema

theorem kind?_eq_of_perm {first second : Schema}
    (h : first.types.entries.Perm second.types.entries) (name : String) :
    first.kind? name = second.kind? name := by
  have hget : first.types.get? name = second.types.get? name :=
    Entries.get?_eq_of_perm h first.types.nodup name
  unfold kind?
  rw [hget]

/-- A name that `larger` does not declare anew has the kind that it had. -/
theorem kind?_eq_of_subset {schema larger : Schema}
    (hsubset : schema.types.entries ⊆ larger.types.entries) {name : String}
    (hname : ∀ entry ∈ larger.types.entries, entry ∉ schema.types.entries → entry.1 ≠ name) :
    schema.kind? name = larger.kind? name := by
  have hget : schema.types.get? name = larger.types.get? name := by
    cases hlarger : larger.types.get? name with
    | none =>
      rw [OrderedMap.get?, Entries.get?_eq_none_iff] at hlarger ⊢
      exact fun hmem => hlarger (List.map_subset Prod.fst hsubset hmem)
    | some definition =>
      have hmem : (name, definition) ∈ schema.types.entries := by
        by_contra hnew
        exact hname _ (Entries.mem_of_get?_eq_some hlarger) hnew rfl
      exact Entries.get?_eq_some_of_mem schema.types.nodup hmem
  unfold kind?
  rw [hget]

theorem kind?_eq_of_forall₂ {first second : Schema}
    (h : List.Forall₂ (fun old new => old.1 = new.1 ∧ old.2.body.kind = new.2.body.kind)
      first.types.entries second.types.entries) (name : String) :
    first.kind? name = second.kind? name := by
  have hcatalog : first.catalog = second.catalog := by
    apply OrderedMap.ext_entries
    apply map_eq_map_of_forall₂
    exact h.imp fun old new hsame => Prod.ext hsame.1 hsame.2
  unfold kind?
  rw [← get?_catalog, ← get?_catalog, hcatalog]

end Schema

namespace Document

/-- Of a schema, nothing but the kinds of the mentioned names matters to the documents. -/
structure DependsOnKinds [NumberReader] (documents : List ExecutableDocument) : Prop where
  of_kinds : ∀ first second : Schema,
    (∀ name ∈ documents.flatMap ExecutableDocument.typeNames,
      first.kind? name = second.kind? name) →
    ofDocuments first.catalog documents = ofDocuments second.catalog documents
  /-- Types may be declared besides, anywhere among the others, if they are not mentioned. -/
  of_unrelated : ∀ schema larger : Schema, schema.types.entries ⊆ larger.types.entries →
    (∀ entry ∈ larger.types.entries, entry ∉ schema.types.entries →
      entry.1 ∉ documents.flatMap ExecutableDocument.typeNames) →
    ofDocuments schema.catalog documents = ofDocuments larger.catalog documents
  of_reordered : ∀ first second : Schema, first.types.entries.Perm second.types.entries →
    ofDocuments first.catalog documents = ofDocuments second.catalog documents
  /-- Members, directives, descriptions and marks of types may change. -/
  of_edited : ∀ first second : Schema,
    List.Forall₂ (fun old new => old.1 = new.1 ∧ old.2.body.kind = new.2.body.kind)
      first.types.entries second.types.entries →
    ofDocuments first.catalog documents = ofDocuments second.catalog documents

section

variable [NumberReader]

theorem ofDocuments_eq_of_kinds {documents : List ExecutableDocument} {first second : Schema}
    (h : ∀ name ∈ documents.flatMap ExecutableDocument.typeNames,
      first.kind? name = second.kind? name) :
    ofDocuments first.catalog documents = ofDocuments second.catalog documents := by
  apply ofDocuments_congr
  intro name hname
  rw [Schema.get?_catalog, Schema.get?_catalog]
  exact h name hname

theorem dependsOnKinds (documents : List ExecutableDocument) : DependsOnKinds documents where
  of_kinds first second h := ofDocuments_eq_of_kinds h
  of_unrelated schema larger hsubset hnew := by
    apply ofDocuments_eq_of_kinds
    intro name hname
    apply Schema.kind?_eq_of_subset hsubset
    rintro entry hentry hfresh rfl
    exact hnew entry hentry hfresh hname
  of_reordered first second h := by
    apply ofDocuments_eq_of_kinds
    intro name _
    exact Schema.kind?_eq_of_perm h name
  of_edited first second h := by
    apply ofDocuments_eq_of_kinds
    intro name _
    exact Schema.kind?_eq_of_forall₂ h name

end

/-- `Schema.postSchema` with its types in another order, `ID` not marked as built in, a field of
another name in `User`, a member in `Post`, an enum in the place of the input object `Filter`, and
the scalar `Date` besides. -/
def alteredPostSchema : Schema where
  directives := [⟨"link", []⟩]
  types := .ofList [("Date", ⟨none, false, [], .scalar⟩),
    ("Filter", ⟨none, false, [], .enum (.ofList [("RECENT", ⟨none, []⟩)])⟩),
    ("Post", ⟨none, false, [⟨"key", []⟩], .union (.ofNames ["User"])⟩),
    ("User", ⟨some "Who posts.", false, [], .object .empty (.ofList
      [("articles", ⟨none, [], .list (.named "Post"), []⟩)])⟩),
    ("ID", ⟨none, false, [], .scalar⟩)]
  directiveDefinitions := .empty

section

open NumberReader.Nearest

theorem dependsOnKinds_postQuery :
    (∀ name ∈ [Schema.postQuery].flatMap ExecutableDocument.typeNames,
      Schema.postSchema.kind? name = alteredPostSchema.kind? name) ∧
      Schema.postSchema.kind? "Filter" ≠ alteredPostSchema.kind? "Filter" ∧
      ∃ document, ofDocuments Schema.postSchema.catalog [Schema.postQuery] = .ok document ∧
        ofDocuments alteredPostSchema.catalog [Schema.postQuery] = .ok document := by
  have hkinds : ∀ name ∈ [Schema.postQuery].flatMap ExecutableDocument.typeNames,
      Schema.postSchema.kind? name = alteredPostSchema.kind? name := by
    decide
  have hsame := (dependsOnKinds [Schema.postQuery]).of_kinds _ _ hkinds
  exact ⟨hkinds, by decide, _, rfl, hsame ▸ rfl⟩

end

end Document

end GraphQLIR
