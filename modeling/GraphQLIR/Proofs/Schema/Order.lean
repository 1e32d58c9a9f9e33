import GraphQLIR.Proofs.Record.Retyping
import GraphQLIR.Proofs.Schema.Partition
/-!
# The order of declarations

Schemas that declare the same types and directives in different orders are accepted alike, and the
records of one are those of the other in another order. Only the fault of a refused schema depends
on the order, since it is the first one.
-/

namespace GraphQLIR

/-- Where an item stands does not matter to finding it by its key, if the keys are distinct. -/
theorem find?_key_and_eq_of_perm {α : Type} {key : α → String} {first second : List α}
    (hperm : first.Perm second) (hnodup : (first.map key).Nodup) (test : α → Bool) (name : String) :
    first.find? (fun item => test item && key item == name) =
      second.find? fun item => test item && key item == name := by
  by_cases hname : name ∈ first.map key
  · obtain ⟨item, hitem, rfl⟩ := List.mem_map.1 hname
    rw [find?_key_and_eq hnodup hitem,
      find?_key_and_eq ((hperm.map key).nodup hnodup) (hperm.mem_iff.1 hitem)]
  · have hnone : ∀ item ∈ first, ¬(test item && key item == name) = true := by
      intro item hitem hfound
      rw [Bool.and_eq_true, beq_iff_eq] at hfound
      exact hname (hfound.2 ▸ List.mem_map_of_mem hitem)
    rw [List.find?_eq_none.2 hnone,
      List.find?_eq_none.2 fun item hitem => hnone item (hperm.mem_iff.2 hitem)]

/-- The schemas declare the same, each in an order of its own. -/
structure Schema.Reorders (first second : Schema) : Prop where
  types : first.types.entries.Perm second.types.entries
  directiveDefinitions :
    first.directiveDefinitions.entries.Perm second.directiveDefinitions.entries
  directives_eq : first.directives = second.directives

/-- The same records stand in each sequence, and the same record is found under each name. -/
structure SchemaRecords.Reorders (first second : SchemaRecords) : Prop where
  sequences : ∀ kind, (first.sequence kind).Perm (second.sequence kind)
  directiveRecords : first.directiveRecords.Perm second.directiveRecords
  directives_eq : first.directives = second.directives
  definition?_eq : ∀ kind name, first.definition? kind name = second.definition? kind name

namespace SchemaRecords

theorem Sorts.definition?_eq_of_perm {first second : SchemaRecords}
    {types moved : List DefinitionRecord} (hfirst : first.Sorts types)
    (hsecond : second.Sorts moved) (hperm : types.Perm moved)
    (hnodup : (types.map DefinitionRecord.name).Nodup) (kind : TypeKind) (name : String) :
    first.definition? kind name = second.definition? kind name := by
  rw [hfirst.definition?_eq, hsecond.definition?_eq]
  exact find?_key_and_eq_of_perm hperm hnodup (fun record => record.kind == kind) name

end SchemaRecords

namespace Schema

variable {first second : Schema}

theorem Reorders.symm (h : first.Reorders second) : second.Reorders first :=
  ⟨h.types.symm, h.directiveDefinitions.symm, h.directives_eq.symm⟩

theorem Reorders.retypes (h : first.Reorders second) :
    first.catalog.Retypes second.catalog id := by
  apply Catalog.retypes_id
  intro name
  have hget : first.types.get? name = second.types.get? name :=
    Entries.get?_eq_of_perm h.types first.types.nodup name
  rw [get?_catalog, get?_catalog, hget]

section

variable [NumberReader]

theorem Reorders.typeRecords (h : first.Reorders second) {types : List DefinitionRecord}
    (htypes : first.typeRecords = .ok types) :
    ∃ moved, second.typeRecords = .ok moved ∧ types.Perm moved := by
  have hsame := DefinitionRecord.mapM_retyped h.retypes second.ownTypes
  rw [DefinitionRecord.mapTypes_id, List.map_id_fun, id_map] at hsame
  have hperm : first.ownTypes.Perm second.ownTypes := h.types.filter _
  obtain ⟨moved, hmoved, hrecords⟩ := mapM_perm hperm htypes
  exact ⟨moved, hsame.trans hmoved, hrecords⟩

theorem Reorders.directiveRecords (h : first.Reorders second) {records : List DirectiveRecord}
    (hrecords : first.directiveRecords = .ok records) :
    ∃ moved, second.directiveRecords = .ok moved ∧ records.Perm moved := by
  have hsame := DirectiveRecord.mapM_retyped h.retypes second.ownDirectives
  rw [DirectiveRecord.mapTypes_id, List.map_id_fun, id_map] at hsame
  have hperm : first.ownDirectives.Perm second.ownDirectives := h.directiveDefinitions.filter _
  rw [directiveRecords_eq] at hrecords ⊢
  obtain ⟨moved, hmoved, hmovedPerm⟩ := mapM_perm hperm hrecords
  exact ⟨moved, hsame.trans hmoved, hmovedPerm⟩

/-- A schema is accepted if its types and its directives are. -/
theorem exists_normalize_eq_ok {schema : Schema} {types : List DefinitionRecord}
    {directiveRecords : List DirectiveRecord} (htypes : schema.typeRecords = .ok types)
    (hdirectives : schema.directiveRecords = .ok directiveRecords) :
    ∃ records, schema.normalize = .ok records ∧ records.Sorts types ∧
      records.directiveRecords = directiveRecords ∧
      records.directives = .ofApplications schema.directives := by
  unfold normalize
  rw [htypes, hdirectives]
  exact ⟨_, rfl, ⟨rfl, rfl, rfl, rfl, rfl, rfl⟩, rfl, rfl⟩

theorem Reorders.exists_reordered (h : first.Reorders second) {records : SchemaRecords}
    (hrecords : first.normalize = .ok records) :
    ∃ others, second.normalize = .ok others ∧ records.Reorders others := by
  obtain ⟨types, htypes, hdirectives, hsorts, happlied⟩ := normalize_eq_ok hrecords
  obtain ⟨moved, hmoved, hperm⟩ := h.typeRecords htypes
  obtain ⟨movedDirectives, hmovedDirectives, hpermDirectives⟩ := h.directiveRecords hdirectives
  obtain ⟨others, hothers, hmovedSorts, rfl, hmovedApplied⟩ :=
    exists_normalize_eq_ok hmoved hmovedDirectives
  have hnodup : (types.map DefinitionRecord.name).Nodup :=
    map_name_typeRecords htypes ▸ first.nodup_keys_ownTypes
  refine ⟨others, hothers, fun kind => ?_, hpermDirectives, ?_, ?_⟩
  · rw [hsorts.sequence_eq, hmovedSorts.sequence_eq]
    exact hperm.filter _
  · rw [happlied, hmovedApplied, h.directives_eq]
  · exact hsorts.definition?_eq_of_perm hmovedSorts hperm hnodup

theorem normalize_reorders (h : first.Reorders second) :
    ((∃ records, first.normalize = .ok records) ↔ ∃ others, second.normalize = .ok others) ∧
      ∀ records others, first.normalize = .ok records → second.normalize = .ok others →
        records.Reorders others := by
  refine ⟨⟨?_, ?_⟩, ?_⟩
  · rintro ⟨records, hrecords⟩
    obtain ⟨others, hothers, -⟩ := h.exists_reordered hrecords
    exact ⟨others, hothers⟩
  · rintro ⟨others, hothers⟩
    obtain ⟨records, hrecords, -⟩ := h.symm.exists_reordered hothers
    exact ⟨records, hrecords⟩
  · intro records others hrecords hothers
    obtain ⟨found, hfound, hreorders⟩ := h.exists_reordered hrecords
    rw [hothers] at hfound
    exact Except.ok.inj hfound ▸ hreorders

end

/-- The schema with all its types and directives declared in the opposite order. -/
def reversed (schema : Schema) : Schema where
  directives := schema.directives
  types := ⟨schema.types.entries.reverse, by
    rw [Entries.keys, List.map_reverse, List.nodup_reverse]
    exact schema.types.nodup⟩
  directiveDefinitions := ⟨schema.directiveDefinitions.entries.reverse, by
    rw [Entries.keys, List.map_reverse, List.nodup_reverse]
    exact schema.directiveDefinitions.nodup⟩

theorem reorders_reversed (schema : Schema) : schema.Reorders schema.reversed :=
  ⟨(List.reverse_perm _).symm, (List.reverse_perm _).symm, rfl⟩

section

open NumberReader.Nearest

theorem normalize_reversed_librarySchema :
    librarySchema.Reorders librarySchema.reversed ∧
      ∃ records others, librarySchema.normalize = .ok records ∧
        librarySchema.reversed.normalize = .ok others ∧
        records.objects.map ObjectRecord.name = ["Shelf", "Book"] ∧
        others.objects.map ObjectRecord.name = ["Book", "Shelf"] ∧ records.Reorders others :=
  ⟨reorders_reversed _, _, _, rfl, rfl, rfl, rfl,
    (normalize_reorders (reorders_reversed librarySchema)).2 _ _ rfl rfl⟩

end

end Schema

end GraphQLIR
