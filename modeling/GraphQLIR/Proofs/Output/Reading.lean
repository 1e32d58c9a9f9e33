import GraphQLIR.Proofs.Output.Alike
/-!
# Reading back

Configuration records are read back from what they are written as. Moreover each is read from its
own fields alone, wherever they stand in the object and whatever other members there are.
-/

namespace GraphQLIR

/-! ## Parts of records -/

namespace Json

theorem optionalString?_ofOption (value : Option String) :
    (ofOption str value).optionalString? = some value := by
  cases value <;> rfl

theorem strings?_ofStrings (values : List String) :
    (ofStrings values).strings? = some values := by
  rw [ofStrings, strings?, List.mapM_map]
  exact (List.mapM_pure (f := id)).trans (congrArg some (List.map_id values))

theorem object?_obj_entries (map : OrderedMap Json) :
    (obj map.entries).object? = some map := by
  rw [object?, OrderedMap.ofList_entries]

end Json

theorem FileLayout.ofJson?_name (layout : FileLayout) :
    ofJson? (.str layout.name) = some layout := by
  cases layout <;> decide

theorem TemplateEntry.ofJson?_toJson (entry : TemplateEntry) :
    ofJson? entry.toJson = some entry := by
  cases entry with
  | whole template => rfl
  | partials templates =>
    change (Json.ofStrings templates).strings?.map partials = some (.partials templates)
    rw [Json.strings?_ofStrings, Option.map_some]

theorem TemplateSet.ofJson?_toJson (set : TemplateSet) : ofJson? set.toJson = some set := by
  cases set with
  | location path => rfl
  | named entries =>
    refine ofJson?_obj_eq_some_iff.2 ⟨entries.entries, ?_, by rw [OrderedMap.ofList_entries]⟩
    refine List.forall₂_map_left_iff.2 (List.forall₂_same.2 fun entry _ => ?_)
    exact ⟨rfl, TemplateEntry.ofJson?_toJson entry.2⟩

/-! ## Records -/

/-- Records are written with these fields and read back, and nothing else makes a difference: not
where the fields stand, not what else there is, and not the order of members deeper down. -/
structure ReadsBack {α : Type} [BEq α] (names : List String) (write : α → Json)
    (read : Json → Option α) : Prop where
  names_written : ∀ record, ∃ members : Entries Json,
    write record = .obj members ∧ members.keys = names
  read_written : ∀ record, read (write record) = some record
  /-- Members may move, and others with unknown names may come in between. -/
  read_rearranged : ∀ members more others : Entries Json, others.keys.Nodup →
    others.Perm (members ++ more) → (∀ name ∈ more.keys, name ∉ names) →
    read (.obj others) = read (.obj members)
  /-- Values that are equal without order are read as equal records, or are both refused. -/
  read_alike : Json.Respects (fun a b => (a == b) = true) read

/-- A reader of the fields by their names cannot see other members. -/
theorem ReadsBack.of_congr {α : Type} [BEq α] {names : List String} {write : α → Json}
    {read : Json → Option α}
    (hnames : ∀ record, ∃ members : Entries Json,
      write record = .obj members ∧ members.keys = names)
    (hwritten : ∀ record, read (write record) = some record)
    (hcongr : ∀ members others : Entries Json,
      (∀ name ∈ names, others.get? name = members.get? name) →
      read (.obj others) = read (.obj members))
    (halike : Json.Respects (fun a b => (a == b) = true) read) : ReadsBack names write read where
  names_written := hnames
  read_written := hwritten
  read_rearranged := by
    intro members more others hnodup hperm hmore
    refine hcongr members others fun name hname => ?_
    exact Entries.get?_of_perm_append hnodup hperm fun hmem => hmore name hmem hname
  read_alike := halike

section

variable {members others : Entries Json}

namespace ScalarNames

theorem ofJson?_toJson (names : ScalarNames) : ofJson? names.toJson = some names :=
  rfl

theorem ofJson?_congr (h : ∀ name ∈ ["String", "Int", "Float", "Boolean", "ID"],
      others.get? name = members.get? name) :
    ofJson? (.obj others) = ofJson? (.obj members) := by
  simp only [List.forall_mem_cons] at h
  simp only [ofJson?, Json.recordFields?, Option.bind_eq_bind, Option.bind_some,
    Entries.required?, h]

end ScalarNames

namespace Configuration

theorem ofJson?_obj_eq_some {configuration : Configuration}
    (hlayout : members.required? "inputType" FileLayout.ofJson? = some configuration.layout)
    (hflattens : members.withDefault? "flattenTypes" false Json.bool? =
      some configuration.flattens)
    (hextra : members.withDefault? "config" ∅ Json.object? = some configuration.extra)
    (htemplates : members.required? "templates" TemplateSet.ofJson? =
      some configuration.templates)
    (hscalarNames : members.withDefault? "primitives" .standard ScalarNames.ofJson? =
      some configuration.scalarNames)
    (houtFile : members.withDefault? "outFile" none Json.optionalString? =
      some configuration.outFile)
    (hfileExtension : members.withDefault? "filesExtension" none Json.optionalString? =
      some configuration.fileExtension) :
    ofJson? (.obj members) = some configuration := by
  simp only [ofJson?, Json.recordFields?, Option.bind_eq_bind, Option.bind_some, Option.pure_def,
    hlayout, hflattens, hextra, htemplates, hscalarNames, houtFile, hfileExtension]

theorem ofJson?_toJson (configuration : Configuration) :
    ofJson? configuration.toJson = some configuration := by
  apply ofJson?_obj_eq_some
  · exact FileLayout.ofJson?_name configuration.layout
  · rfl
  · exact Json.object?_obj_entries configuration.extra
  · exact TemplateSet.ofJson?_toJson configuration.templates
  · exact ScalarNames.ofJson?_toJson configuration.scalarNames
  · exact Json.optionalString?_ofOption configuration.outFile
  · exact Json.optionalString?_ofOption configuration.fileExtension

theorem ofJson?_congr (h : ∀ name ∈ ["inputType", "flattenTypes", "config", "templates",
        "primitives", "outFile", "filesExtension"], others.get? name = members.get? name) :
    ofJson? (.obj others) = ofJson? (.obj members) := by
  simp only [List.forall_mem_cons] at h
  simp only [ofJson?, Json.recordFields?, Option.bind_eq_bind, Option.bind_some,
    Entries.required?, Entries.withDefault?, h]

end Configuration

namespace RunOptions

theorem ofJson?_toJson (options : RunOptions) : ofJson? options.toJson = some options :=
  rfl

theorem ofJson?_congr (h : ∀ name ∈ ["generateSchema", "generateDocuments", "verbose"],
      others.get? name = members.get? name) :
    ofJson? (.obj others) = ofJson? (.obj members) := by
  simp only [List.forall_mem_cons] at h
  simp only [ofJson?, Json.recordFields?, Option.bind_eq_bind, Option.bind_some,
    Entries.withDefault?, h]

end RunOptions

namespace OutputFile

theorem ofJson?_toJson (file : OutputFile) : ofJson? file.toJson = some file :=
  rfl

theorem ofJson?_congr
    (h : ∀ name ∈ ["filename", "content"], others.get? name = members.get? name) :
    ofJson? (.obj others) = ofJson? (.obj members) := by
  simp only [List.forall_mem_cons] at h
  simp only [ofJson?, Json.recordFields?, Option.bind_eq_bind, Option.bind_some,
    Entries.required?, h]

end OutputFile

end

/-- All that is configured, and all that is put out, is read back. -/
theorem configurationRecords_readBack :
    ReadsBack ["inputType", "flattenTypes", "config", "templates", "primitives", "outFile",
        "filesExtension"] Configuration.toJson Configuration.ofJson? ∧
      ReadsBack ["generateSchema", "generateDocuments", "verbose"]
        RunOptions.toJson RunOptions.ofJson? ∧
      ReadsBack ["String", "Int", "Float", "Boolean", "ID"]
        ScalarNames.toJson ScalarNames.ofJson? ∧
      ReadsBack ["filename", "content"] OutputFile.toJson OutputFile.ofJson? := by
  refine ⟨?_, ?_, ?_, ?_⟩
  · exact .of_congr (fun _ => ⟨_, rfl, rfl⟩) Configuration.ofJson?_toJson
      (fun _ _ => Configuration.ofJson?_congr) Configuration.respects_ofJson?
  · exact .of_congr (fun _ => ⟨_, rfl, rfl⟩) RunOptions.ofJson?_toJson
      (fun _ _ => RunOptions.ofJson?_congr) RunOptions.respects_ofJson?.beq
  · exact .of_congr (fun _ => ⟨_, rfl, rfl⟩) ScalarNames.ofJson?_toJson
      (fun _ _ => ScalarNames.ofJson?_congr) ScalarNames.respects_ofJson?.beq
  · exact .of_congr (fun _ => ⟨_, rfl, rfl⟩) OutputFile.ofJson?_toJson
      (fun _ _ => OutputFile.ofJson?_congr) OutputFile.respects_ofJson?.beq

example : RunOptions.ofJson? (.obj [("verbose", .bool true), ("other", .null),
    ("generateDocuments", .bool false)]) = some ⟨true, false, true⟩ := rfl

end GraphQLIR
