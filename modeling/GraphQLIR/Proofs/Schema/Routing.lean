import GraphQLIR.Proofs.Document.TypeRefs
/-!
# Classification and routing

Types are classified by a catalog of all declared types, and records are sorted into one sequence
per kind without those of built-in types. The two agree: a type that a normalized schema or
document refers to is found in the sequence of its kind and in no other, unless it is built in.
-/

namespace GraphQLIR

/-! ## Records by kind -/

section

variable {α β : Type}

/-- Searching the selected parts of some items comes to searching the items. -/
theorem map_find?_filterMap {part? : α → Option β} {whole : β → α}
    (hwhole : ∀ item part, part? item = some part → whole part = item) {onPart : β → Bool}
    {onItem : α → Bool} (hiff : ∀ item, (part? item).any onPart = onItem item) (items : List α) :
    ((items.filterMap part?).find? onPart).map whole = items.find? onItem := by
  have hany : (fun item => (part? item).any onPart) = onItem := funext hiff
  rw [List.find?_filterMap, hany]
  cases hfind : items.find? onItem with
  | none => rfl
  | some item =>
    have hfound : onItem item = true := List.find?_some hfind
    rw [← hiff item, Option.any_eq_true] at hfound
    obtain ⟨part, hpart, -⟩ := hfound
    rw [Option.bind_some, hpart, Option.map_some, hwhole item part hpart]

/-- Among items with distinct keys, the one of a key is found just if it passes the test. -/
theorem find?_key_and_eq {key : α → String} {items : List α} (hnodup : (items.map key).Nodup)
    {item : α} (hitem : item ∈ items) (test : α → Bool) :
    items.find? (fun other => test other && key other == key item) =
      if test item then some item else none := by
  have honly : ∀ other ∈ items, key other = key item → other = item :=
    fun other hother hkey => List.inj_on_of_nodup_map hnodup hother hitem hkey
  cases hfind : items.find? (fun other => test other && key other == key item) with
  | none =>
    have hfails := List.find?_eq_none.1 hfind item hitem
    rw [if_neg (by simpa using hfails)]
  | some other =>
    have hother := List.find?_some hfind
    rw [Bool.and_eq_true, beq_iff_eq] at hother
    have hsame : other = item := honly other (List.mem_of_find?_eq_some hfind) hother.2
    rw [hsame] at hother ⊢
    rw [if_pos hother.1]

end

namespace SchemaRecords

/-- Looks a name up in the sequence of a kind. -/
def definition? (records : SchemaRecords) (kind : TypeKind) (name : String) :
    Option DefinitionRecord :=
  match kind with
  | .object => (records.object? name).map .object
  | .inputObject => (records.inputObject? name).map .inputObject
  | .interface => (records.interface? name).map .interface
  | .union => (records.union? name).map .union
  | .enum => (records.enum? name).map .enum
  | .scalar => (records.scalar? name).map .scalar

/-- The types of fields, of their arguments and of the arguments of directives. -/
def typeRefs (records : SchemaRecords) : List TypeRef :=
  records.fields.flatMap FieldRecord.typeRefs ++
    records.directiveRecords.flatMap DirectiveRecord.typeRefs

/-- The sequences of some records, each of which goes to that of its kind. -/
structure Sorts (records : SchemaRecords) (types : List DefinitionRecord) : Prop where
  objects : records.objects = types.filterMap DefinitionRecord.object?
  inputObjects : records.inputObjects = types.filterMap DefinitionRecord.inputObject?
  enums : records.enums = types.filterMap DefinitionRecord.enum?
  unions : records.unions = types.filterMap DefinitionRecord.union?
  interfaces : records.interfaces = types.filterMap DefinitionRecord.interface?
  scalars : records.scalars = types.filterMap DefinitionRecord.scalar?

namespace Sorts

variable {records : SchemaRecords} {types : List DefinitionRecord}

theorem definition?_eq (h : Sorts records types) (kind : TypeKind) (name : String) :
    records.definition? kind name =
      types.find? fun record => record.kind == kind && record.name == name := by
  -- every part of a kind comes back by the constructor of this kind
  cases kind <;>
    simp only [definition?, object?, inputObject?, interface?, union?, enum?, scalar?, h.objects,
      h.inputObjects, h.interfaces, h.unions, h.enums, h.scalars] <;>
    exact map_find?_filterMap (fun record _ hpart => by cases record <;> cases hpart; rfl)
      (fun record => by cases record <;> rfl) types

theorem exists_mem_of_mem_fields (h : Sorts records types) {field : FieldRecord}
    (hfield : field ∈ records.fields) : ∃ record ∈ types, field ∈ record.fields := by
  rw [fields, h.objects, h.inputObjects, h.interfaces, List.mem_append, List.mem_append] at hfield
  rcases hfield with (hfield | hfield) | hfield <;>
    obtain ⟨part, hpart, hfield⟩ := List.mem_flatMap.1 hfield <;>
    obtain ⟨record, hrecord, hpart⟩ := List.mem_filterMap.1 hpart <;>
    refine ⟨record, hrecord, ?_⟩ <;>
    cases record <;> cases hpart <;> exact hfield

end Sorts

end SchemaRecords

namespace Schema

variable {schema : Schema} {records : SchemaRecords} {types : List DefinitionRecord}

theorem get?_catalog (schema : Schema) (name : String) :
    schema.catalog.get? name =
      (schema.types.get? name).map fun definition => definition.body.kind :=
  OrderedMap.get?_map _ _ _

/-- The declared types that are not built in. -/
def ownTypes (schema : Schema) : Entries TypeDefinition :=
  schema.types.entries.filter fun (_, definition) => !definition.isBuiltIn

theorem nodup_keys_ownTypes (schema : Schema) : schema.ownTypes.keys.Nodup :=
  schema.types.nodup.sublist (List.filter_sublist.map Prod.fst)

theorem notMem_keys_ownTypes {name : String} {definition : TypeDefinition}
    (hget : schema.types.get? name = some definition) (hbuiltIn : definition.isBuiltIn = true) :
    name ∉ schema.ownTypes.keys := by
  intro hmem
  obtain ⟨⟨_, other⟩, hentry, rfl⟩ := List.mem_map.1 hmem
  obtain ⟨hdeclared, hown⟩ := List.mem_filter.1 hentry
  have hsame := (Entries.get?_eq_some_of_mem schema.types.nodup hdeclared).symm.trans hget
  rw [Option.some.inj hsame] at hown
  simp [hbuiltIn] at hown

section

variable [NumberReader]

theorem normalize_eq_ok (h : schema.normalize = .ok records) :
    ∃ types, schema.typeRecords = .ok types ∧
      schema.directiveRecords = .ok records.directiveRecords ∧ records.Sorts types ∧
      records.directives = .ofApplications schema.directives := by
  obtain ⟨types, htypes, h⟩ := bind_eq_ok_iff.1 h
  obtain ⟨directives, hdirectives, hrecords⟩ := bind_eq_ok_iff.1 h
  rw [← Except.ok.inj hrecords]
  exact ⟨types, htypes, hdirectives, ⟨rfl, rfl, rfl, rfl, rfl, rfl⟩, rfl⟩

theorem typeRecords_eq_ok (h : schema.typeRecords = .ok types) :
    List.Forall₂ (fun entry record =>
        DefinitionRecord.ofDefinition schema.catalog entry.1 entry.2 = .ok record)
      schema.ownTypes types :=
  mapM_eq_ok_iff.1 h

theorem map_name_typeRecords (h : schema.typeRecords = .ok types) :
    types.map DefinitionRecord.name = schema.ownTypes.keys :=
  (map_eq_map_of_forall₂ <| (typeRecords_eq_ok h).imp
    fun _ _ hrecord => (DefinitionRecord.isOf_of_ofDefinition_eq_ok hrecord).name_eq.symm).symm

theorem classifies_of_mem_typeRefs (h : schema.normalize = .ok records) {type : TypeRef}
    (htype : type ∈ records.typeRefs) : schema.catalog.Classifies type := by
  obtain ⟨types, htypes, hdirectives, hsorts, -⟩ := normalize_eq_ok h
  rcases List.mem_append.1 htype with hfield | hdirective
  · obtain ⟨field, hfield, htype⟩ := List.mem_flatMap.1 hfield
    obtain ⟨record, hrecord, hfield⟩ := hsorts.exists_mem_of_mem_fields hfield
    obtain ⟨entry, -, hentry⟩ := exists_mem_of_forall₂_right (typeRecords_eq_ok htypes) hrecord
    exact (DefinitionRecord.isOf_of_ofDefinition_eq_ok hentry).classifies
      (List.mem_flatMap.2 ⟨field, hfield, htype⟩)
  · obtain ⟨record, hrecord, htype⟩ := List.mem_flatMap.1 hdirective
    obtain ⟨entry, -, hentry⟩ := exists_mem_of_forall₂_right (mapM_eq_ok_iff.1 hdirectives) hrecord
    exact (DirectiveRecord.isOf_of_ofDefinition_eq_ok hentry).classifies htype

theorem knows_of_mem_typeRefs (h : schema.normalize = .ok records) {type : TypeRef}
    (htype : type ∈ records.typeRefs) : schema.catalog.Knows type :=
  (classifies_of_mem_typeRefs h htype).knows

/-- The sequence of each kind, searched for a declared type that is not built in. -/
theorem definition?_of_own (h : schema.normalize = .ok records) {name : String}
    {definition : TypeDefinition} (hget : schema.types.get? name = some definition)
    (hown : definition.isBuiltIn = false) :
    ∃ record, DefinitionRecord.ofDefinition schema.catalog name definition = .ok record ∧
      ∀ kind, records.definition? kind name =
        if kind = definition.body.kind then some record else none := by
  obtain ⟨types, htypes, -, hsorts, -⟩ := normalize_eq_ok h
  have hmem : (name, definition) ∈ schema.ownTypes :=
    List.mem_filter.2 ⟨Entries.mem_of_get?_eq_some hget, by simp [hown]⟩
  obtain ⟨record, hrecord, hnormal⟩ := exists_mem_of_forall₂_left (typeRecords_eq_ok htypes) hmem
  have hisOf := DefinitionRecord.isOf_of_ofDefinition_eq_ok hnormal
  have hnodup : (types.map DefinitionRecord.name).Nodup :=
    map_name_typeRecords htypes ▸ schema.nodup_keys_ownTypes
  refine ⟨record, hnormal, fun kind => ?_⟩
  have hfind := find?_key_and_eq hnodup hrecord fun other => other.kind == kind
  rw [hisOf.name_eq, hisOf.kind_eq] at hfind
  rw [hsorts.definition?_eq, hfind]
  by_cases hsame : kind = definition.body.kind
  · rw [if_pos hsame, if_pos (by simp [hsame])]
  · rw [if_neg hsame, if_neg (by simpa using Ne.symm hsame)]

/-- No sequence has a record of a built-in type. -/
theorem definition?_of_builtIn (h : schema.normalize = .ok records) {name : String}
    {definition : TypeDefinition} (hget : schema.types.get? name = some definition)
    (hbuiltIn : definition.isBuiltIn = true) (kind : TypeKind) :
    records.definition? kind name = none := by
  obtain ⟨types, htypes, -, hsorts, -⟩ := normalize_eq_ok h
  have hnot : name ∉ types.map DefinitionRecord.name := by
    rw [map_name_typeRecords htypes]
    exact notMem_keys_ownTypes hget hbuiltIn
  rw [hsorts.definition?_eq, List.find?_eq_none]
  intro record hrecord hfound
  rw [Bool.and_eq_true, beq_iff_eq, beq_iff_eq] at hfound
  exact hnot (hfound.2 ▸ List.mem_map_of_mem hrecord)

end

end Schema

/-! ## Agreement -/

/-- The type is declared as of its kind. If it is not built in, then its record is found under this
kind and no record under any other; if it is, none is found at all. -/
structure Schema.Routes [NumberReader] (schema : Schema) (records : SchemaRecords)
    (type : TypeRef) : Prop where
  declared : ∃ definition, schema.types.get? type.name = some definition ∧
    definition.body.kind = type.kind
  own : ∀ definition, schema.types.get? type.name = some definition →
    definition.isBuiltIn = false →
    ∃ record, DefinitionRecord.ofDefinition schema.catalog type.name definition = .ok record ∧
      ∀ kind, records.definition? kind type.name = if kind = type.kind then some record else none
  builtIn : ∀ definition, schema.types.get? type.name = some definition →
    definition.isBuiltIn = true → ∀ kind, records.definition? kind type.name = none

namespace Schema

section

variable [NumberReader] {schema : Schema} {records : SchemaRecords}

theorem routes_of_knows (h : schema.normalize = .ok records) {type : TypeRef}
    (htype : schema.catalog.Knows type) : schema.Routes records type := by
  rw [Catalog.Knows, get?_catalog, Option.map_eq_some_iff] at htype
  obtain ⟨definition, hget, hkind⟩ := htype
  constructor
  · exact ⟨definition, hget, hkind⟩
  · intro other hother hown
    rw [hget] at hother
    rw [← Option.some.inj hother, ← hkind] at *
    exact definition?_of_own h hget hown
  · intro other hother hbuiltIn
    exact definition?_of_builtIn h hother hbuiltIn

/-- Every type that a normalized schema refers to, or a document normalized for it, is found where
it was sorted. -/
theorem typeRefs_routed (h : schema.normalize = .ok records) :
    (∀ type ∈ records.typeRefs, schema.Routes records type) ∧
      ∀ documents document, Document.ofDocuments schema.catalog documents = .ok document →
        ∀ type ∈ document.typeRefs, schema.Routes records type := by
  constructor
  · intro type htype
    exact routes_of_knows h (knows_of_mem_typeRefs h htype)
  · intro documents document hdocument type htype
    exact routes_of_knows h (Document.knows_of_mem_typeRefs hdocument htype)

end

/-- A user has posts that an input object filters by the built-in `ID`. -/
def postSchema : Schema where
  directives := []
  types :=
    let filter : InputValueDefinition := ⟨none, .named "Filter", none, []⟩
    .ofList [("ID", ⟨none, true, [], .scalar⟩),
      ("User", ⟨none, false, [], .object .empty (.ofList
        [("posts", ⟨none, [("filter", filter)], .list (.named "Post"), []⟩)])⟩),
      ("Post", ⟨none, false, [], .union .empty⟩),
      ("Filter", ⟨none, false, [], .inputObject (.ofList
        [("author", ⟨none, .nonNullNamed "ID", none, []⟩)])⟩)]
  directiveDefinitions := .ofList [("only", ⟨none, [("by", ⟨none, .named "Filter", none, []⟩)],
    false, [.field]⟩)]

/-- The query `query ($author: ID) { user { posts { id } } }`. -/
def postQuery : ExecutableDocument where
  source := none
  fragments := .empty
  anonymous := some {
    operationType := .query
    vars := [⟨"author", .named "ID", none⟩]
    selectsFrom := "Query"
    directives := []
    selections :=
      .field ⟨"user", none, .named "User", "User", []⟩
        (.field ⟨"posts", none, .list (.named "Post"), "Post", []⟩
          (.field ⟨"id", none, .named "ID", "ID", []⟩ .empty .empty) .empty) .empty
    origin := ⟨none, ""⟩
  }
  named := .empty

section

open NumberReader.Nearest

theorem typeRefs_postSchema :
    ∃ records document, postSchema.normalize = .ok records ∧
      Document.ofDocuments postSchema.catalog [postQuery] = .ok document ∧
      records.typeRefs.map TypeRef.name = ["Filter", "Post", "ID", "Filter"] ∧
      document.typeRefs.map TypeRef.name = ["ID", "User", "Post", "ID"] ∧
      (∀ type ∈ records.typeRefs, postSchema.Routes records type) ∧
      ∀ type ∈ document.typeRefs, postSchema.Routes records type :=
  ⟨_, _, rfl, rfl, rfl, rfl, (typeRefs_routed rfl).1, (typeRefs_routed rfl).2 [postQuery] _ rfl⟩

end

end Schema

end GraphQLIR
