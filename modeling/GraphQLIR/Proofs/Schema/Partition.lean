import GraphQLIR.Proofs.Schema.Routing
import Mathlib.Data.List.Perm.Basic
/-!
# Schemas as sequences of records

A normalized schema has one sequence of records for each kind of type. Together the sequences have
one record for each declared type that is not built in, and that record stands in the sequence of
the kind of the type. Every sequence is in declaration order, and so are the directives, of which
only those with a built-in name are left out.
-/

namespace GraphQLIR

section

variable {α β κ : Type}

/-- The items that have a part are selected by it. -/
theorem map_filterMap_eq_filter {part? : α → Option β} {whole : β → α}
    (hwhole : ∀ item part, part? item = some part → whole part = item) {test : α → Bool}
    (htest : ∀ item, (part? item).isSome = test item) (items : List α) :
    (items.filterMap part?).map whole = items.filter test := by
  induction items with
  | nil => rfl
  | cons item rest ih =>
    have hitem := htest item
    cases hpart : part? item with
    | none =>
      rw [hpart] at hitem
      rw [List.filterMap_cons_none hpart, ih, List.filter_cons_of_neg (by simp [← hitem])]
    | some part =>
      rw [hpart] at hitem
      rw [List.filterMap_cons_some hpart, List.map_cons, ih, hwhole item part hpart,
        List.filter_cons_of_pos (by simp [← hitem])]

/-- Grouping items by distinct keys loses none and repeats none. -/
theorem flatMap_filter_key_perm [DecidableEq κ] (key : α → κ) {keys : List κ} (hkeys : keys.Nodup)
    {items : List α} (hitems : ∀ item ∈ items, key item ∈ keys) :
    (keys.flatMap fun k => items.filter fun item => key item == k).Perm items := by
  induction keys generalizing items with
  | nil =>
    cases items with
    | nil => exact .nil
    | cons item rest => exact absurd (hitems item List.mem_cons_self) List.not_mem_nil
  | cons k rest ih =>
    rw [List.nodup_cons] at hkeys
    -- the later groups are those of the items left over by the first one
    have hlater : (rest.flatMap fun other => items.filter fun item => key item == other) =
        rest.flatMap fun other =>
          (items.filter fun item => !(key item == k)).filter fun item => key item == other := by
      apply List.flatMap_congr
      intro other hother
      rw [List.filter_filter]
      apply List.filter_congr
      intro item _
      by_cases hitem : key item = other
      · have hne : other ≠ k := fun heq => hkeys.1 (heq ▸ hother)
        simp [hitem, hne]
      · simp [hitem]
    have hrest : ∀ item ∈ items.filter (fun item => !(key item == k)), key item ∈ rest := by
      intro item hitem
      obtain ⟨hmem, hne⟩ := List.mem_filter.1 hitem
      exact List.mem_of_ne_of_mem (by simpa using hne) (hitems item hmem)
    rw [List.flatMap_cons, hlater]
    exact ((ih hkeys.2 hrest).append_left _).trans (List.filter_append_perm _ items)

end

/-! ## Sequences -/

/-- The kinds in the order of their sequences. -/
def TypeKind.all : List TypeKind :=
  [.object, .inputObject, .enum, .union, .interface, .scalar]

theorem TypeKind.nodup_all : all.Nodup := by decide

theorem TypeKind.mem_all (kind : TypeKind) : kind ∈ all := by
  cases kind <;> decide

namespace SchemaRecords

/-- The sequence of the records of a kind. -/
def sequence (records : SchemaRecords) : TypeKind → List DefinitionRecord
  | .object => records.objects.map .object
  | .inputObject => records.inputObjects.map .inputObject
  | .enum => records.enums.map .enum
  | .union => records.unions.map .union
  | .interface => records.interfaces.map .interface
  | .scalar => records.scalars.map .scalar

/-- The names of the records of all six sequences. -/
def names (records : SchemaRecords) : List String :=
  (TypeKind.all.flatMap records.sequence).map DefinitionRecord.name

namespace Sorts

variable {records : SchemaRecords} {types : List DefinitionRecord}

theorem sequence_eq (h : Sorts records types) (kind : TypeKind) :
    records.sequence kind = types.filter fun record => record.kind == kind := by
  cases kind <;>
    simp only [sequence, h.objects, h.inputObjects, h.enums, h.unions, h.interfaces, h.scalars] <;>
    exact map_filterMap_eq_filter (fun record _ hpart => by cases record <;> cases hpart; rfl)
      (fun record => by cases record <;> rfl) types

theorem names_perm (h : Sorts records types) :
    records.names.Perm (types.map DefinitionRecord.name) := by
  have hsequence : records.sequence = fun kind => types.filter fun record => record.kind == kind :=
    funext h.sequence_eq
  unfold names
  rw [hsequence]
  exact (flatMap_filter_key_perm DefinitionRecord.kind TypeKind.nodup_all
    fun record _ => TypeKind.mem_all record.kind).map _

end Sorts

end SchemaRecords

/-! ## Completeness -/

/-- Fields of input objects have no arguments. -/
theorem DefinitionRecord.IsOf.inputObject [NumberReader] {catalog : Catalog}
    {entry : String × TypeDefinition} {record : ObjectRecord} (h : IsOf catalog entry (.inputObject record)) :
    record.isInput = true ∧ record.interfaces = [] ∧
      ∀ field ∈ record.fields, field.arguments = [] := by
  have hkind : TypeKind.inputObject = entry.2.body.kind := h.kind_eq
  have hinput : record.isInput = (entry.2.body.kind == .inputObject) := h.isInput_eq
  have hinterfaces : record.interfaces = entry.2.body.interfaces := h.interfaces_eq
  have hfields : List.Forall₂ (FieldRecord.IsOf catalog) entry.2.body.fields record.fields :=
    h.fields
  cases hbody : entry.2.body with
  | inputObject declared =>
    rw [hbody] at hinput hinterfaces hfields
    refine ⟨hinput, hinterfaces, fun field hfield => ?_⟩
    obtain ⟨declaration, hdeclaration, hisOf⟩ := exists_mem_of_forall₂_right hfields hfield
    obtain ⟨⟨name, definition⟩, -, rfl⟩ := List.mem_map.1 hdeclaration
    exact List.forall₂_nil_left_iff.1 hisOf.arguments
  | object | scalar | interface | union | enum =>
    rw [hbody] at hkind
    cases hkind

namespace Schema

variable {schema : Schema} {records : SchemaRecords}

/-- The declared types of a kind that are not built in, in order. -/
def ownTypesOf (schema : Schema) (kind : TypeKind) : Entries TypeDefinition :=
  schema.ownTypes.filter fun (_, definition) => definition.body.kind == kind

/-- The directives that are defined under a name which is not built in, in order. -/
def ownDirectives (schema : Schema) : Entries DirectiveDefinition :=
  schema.directiveDefinitions.entries.filter fun (name, _) => name ∉ DirectiveRecord.builtInNames

section

variable [NumberReader]

/-- The records are those of the declared types and directives that are not built in, one for
each and in order. A type is built in by its mark, a directive by its name. -/
structure PartitionedInto (schema : Schema) (records : SchemaRecords) : Prop where
  sequences : ∀ kind, List.Forall₂ (DefinitionRecord.IsOf schema.catalog)
    (schema.ownTypesOf kind) (records.sequence kind)
  names_perm : records.names.Perm schema.ownTypes.keys
  names_nodup : records.names.Nodup
  builtIn_notMem : ∀ name definition, schema.types.get? name = some definition →
    definition.isBuiltIn = true → name ∉ records.names
  objects_notInput : ∀ record ∈ records.objects, record.isInput = false
  inputObjects_plain : ∀ record ∈ records.inputObjects, record.isInput = true ∧
    record.interfaces = [] ∧ ∀ field ∈ record.fields, field.arguments = []
  directiveRecords : List.Forall₂ (DirectiveRecord.IsOf schema.catalog)
    schema.ownDirectives records.directiveRecords
  directives_eq : records.directives = .ofApplications schema.directives

theorem forall₂_sequence (h : schema.normalize = .ok records) (kind : TypeKind) :
    List.Forall₂ (DefinitionRecord.IsOf schema.catalog)
      (schema.ownTypesOf kind) (records.sequence kind) := by
  obtain ⟨types, htypes, -, hsorts, -⟩ := normalize_eq_ok h
  have hall : List.Forall₂ (DefinitionRecord.IsOf schema.catalog) schema.ownTypes types :=
    (typeRecords_eq_ok htypes).imp fun _ _ => DefinitionRecord.isOf_of_ofDefinition_eq_ok
  rw [hsorts.sequence_eq]
  refine List.rel_filter (fun entry record hisOf => ?_) hall
  show (entry.2.body.kind == kind) = true ↔ (record.kind == kind) = true
  rw [hisOf.kind_eq]

theorem names_perm_keys_ownTypes (h : schema.normalize = .ok records) :
    records.names.Perm schema.ownTypes.keys := by
  obtain ⟨types, htypes, -, hsorts, -⟩ := normalize_eq_ok h
  rw [← map_name_typeRecords htypes]
  exact hsorts.names_perm

theorem directiveRecords_eq (schema : Schema) :
    schema.directiveRecords = schema.ownDirectives.mapM fun (name, definition) =>
      DirectiveRecord.ofDefinition schema.catalog name definition := by
  have hown : schema.ownDirectives = schema.directiveDefinitions.entries.filter fun (name, _) =>
      !DirectiveRecord.isBuiltIn name := by
    apply List.filter_congr
    intro entry _
    simp [DirectiveRecord.isBuiltIn]
  rw [hown]
  rfl

theorem forall₂_directiveRecords (h : schema.normalize = .ok records) :
    List.Forall₂ (DirectiveRecord.IsOf schema.catalog) schema.ownDirectives
      records.directiveRecords := by
  obtain ⟨-, -, hdirectives, -⟩ := normalize_eq_ok h
  rw [directiveRecords_eq] at hdirectives
  exact (mapM_eq_ok_iff.1 hdirectives).imp fun _ _ => DirectiveRecord.isOf_of_ofDefinition_eq_ok

theorem normalize_partitionedInto (h : schema.normalize = .ok records) :
    schema.PartitionedInto records where
  sequences := forall₂_sequence h
  names_perm := names_perm_keys_ownTypes h
  names_nodup := (names_perm_keys_ownTypes h).symm.nodup schema.nodup_keys_ownTypes
  builtIn_notMem name definition hget hbuiltIn hmem :=
    notMem_keys_ownTypes hget hbuiltIn ((names_perm_keys_ownTypes h).mem_iff.1 hmem)
  objects_notInput record hrecord := by
    have hmem : DefinitionRecord.object record ∈ records.sequence .object :=
      List.mem_map_of_mem hrecord
    obtain ⟨entry, hentry, hisOf⟩ := exists_mem_of_forall₂_right (forall₂_sequence h .object) hmem
    have hkind : TypeKind.object = entry.2.body.kind := hisOf.kind_eq
    have hinput : record.isInput = (entry.2.body.kind == .inputObject) := hisOf.isInput_eq
    rw [hinput, ← hkind]
    rfl
  inputObjects_plain record hrecord := by
    have hmem : DefinitionRecord.inputObject record ∈ records.sequence .inputObject :=
      List.mem_map_of_mem hrecord
    obtain ⟨entry, -, hisOf⟩ :=
      exists_mem_of_forall₂_right (forall₂_sequence h .inputObject) hmem
    exact hisOf.inputObject
  directiveRecords := forall₂_directiveRecords h
  directives_eq := by
    obtain ⟨-, -, -, -, happlied⟩ := normalize_eq_ok h
    exact happlied

end

/-- Types of all kinds in mixed order around the built-in `ID`, a directive, and a built-in
directive that is defined again. -/
def librarySchema : Schema where
  directives := [⟨"link", []⟩]
  types :=
    let id : FieldDefinition := ⟨none, [], .nonNullNamed "ID", []⟩
    let filter : InputValueDefinition := ⟨none, .named "Filter", none, []⟩
    .ofList [("Shelf", ⟨none, false, [], .object .empty (.ofList
        [("books", ⟨none, [("filter", filter)], .list (.named "Book"), []⟩)])⟩),
      ("Genre", ⟨none, false, [], .enum (.ofList [("POETRY", ⟨none, []⟩), ("PROSE", ⟨none, []⟩)])⟩),
      ("ID", ⟨none, true, [], .scalar⟩),
      ("Node", ⟨none, false, [], .interface .empty (.ofList [("id", id)])⟩),
      ("Book", ⟨none, false, [⟨"key", []⟩], .object (.ofNames ["Node"]) (.ofList [("id", id)])⟩),
      ("Filter", ⟨none, false, [], .inputObject (.ofList
        [("genre", ⟨none, .named "Genre", some (.enum "PROSE"), []⟩)])⟩),
      ("Found", ⟨none, false, [], .union (.ofNames ["Shelf", "Book"])⟩),
      ("Date", ⟨none, false, [], .scalar⟩)]
  directiveDefinitions := .ofList
    [("deprecated", ⟨none, [], false, [.fieldDefinition]⟩),
      ("key", ⟨none, [("by", ⟨none, .named "Genre", none, []⟩)], true, [.object]⟩)]

section

open NumberReader.Nearest

theorem normalize_librarySchema :
    ∃ records, librarySchema.normalize = .ok records ∧
      records.names = ["Shelf", "Book", "Filter", "Genre", "Found", "Node", "Date"] ∧
      records.directiveRecords.map DirectiveRecord.name = ["key"] ∧
      librarySchema.PartitionedInto records :=
  ⟨_, rfl, rfl, rfl, normalize_partitionedInto rfl⟩

end

end Schema

end GraphQLIR
