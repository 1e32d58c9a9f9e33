import GraphQLIR.Proofs.Record.Flags
import GraphQLIR.Proofs.Schema.Partition
/-!
# Derived flags of normalized schemas

The records of a normalized schema are made with right flags, and so are the flags of the sequences
that they are sorted into.
-/

namespace GraphQLIR

/-- Whatever sequence a record is sorted into, its flags are right if those of all types are. -/
theorem SchemaRecords.Sorts.flagged {records : SchemaRecords} {types : List DefinitionRecord}
    (h : records.Sorts types) (htypes : ∀ record ∈ types, record.Flagged)
    (hsequences : records.SequencesFlagged)
    (hdirectiveRecords : ∀ record ∈ records.directiveRecords, record.Flagged)
    (hdirectives : records.directives.Flagged) : records.Flagged := by
  have hsorted (kind : TypeKind) : ∀ record ∈ records.sequence kind, record.Flagged := by
    intro record hrecord
    rw [h.sequence_eq] at hrecord
    exact htypes record (List.mem_filter.1 hrecord).1
  exact {
    toSequencesFlagged := hsequences
    objectRecords := fun record hrecord =>
      hsorted .object (.object record) (List.mem_map_of_mem hrecord)
    inputObjectRecords := fun record hrecord =>
      hsorted .inputObject (.inputObject record) (List.mem_map_of_mem hrecord)
    enumRecords := fun record hrecord =>
      hsorted .enum (.enum record) (List.mem_map_of_mem hrecord)
    unionRecords := fun record hrecord =>
      hsorted .union (.union record) (List.mem_map_of_mem hrecord)
    interfaceRecords := fun record hrecord =>
      hsorted .interface (.interface record) (List.mem_map_of_mem hrecord)
    scalarRecords := fun record hrecord =>
      hsorted .scalar (.scalar record) (List.mem_map_of_mem hrecord)
    definedDirectives := hdirectiveRecords
    directives := hdirectives
  }

namespace Schema

variable [NumberReader] {schema : Schema} {records : SchemaRecords}

theorem flagged_directiveRecords (h : schema.normalize = .ok records) :
    ∀ record ∈ records.directiveRecords, record.Flagged := by
  intro record hrecord
  obtain ⟨-, -, hdirectives, -⟩ := normalize_eq_ok h
  obtain ⟨entry, -, hentry⟩ := exists_mem_of_forall₂_right (mapM_eq_ok_iff.1 hdirectives) hrecord
  exact (DirectiveRecord.isOf_of_ofDefinition_eq_ok hentry).flagged

/-- The flags of the sequences are set when all types are sorted into them. -/
theorem sequencesFlagged_of_normalize_eq_ok (h : schema.normalize = .ok records) :
    records.SequencesFlagged := by
  obtain ⟨types, -, h⟩ := bind_eq_ok_iff.1 h
  obtain ⟨directives, -, hrecords⟩ := bind_eq_ok_iff.1 h
  rw [← Except.ok.inj hrecords]
  exact ⟨rfl, rfl, rfl, rfl, rfl, rfl, rfl⟩

theorem flagged_of_normalize_eq_ok (h : schema.normalize = .ok records) : records.Flagged := by
  obtain ⟨types, htypes, -, hsorts, happlied⟩ := normalize_eq_ok h
  have hflagged : ∀ record ∈ types, record.Flagged := by
    intro record hrecord
    obtain ⟨entry, -, hentry⟩ := exists_mem_of_forall₂_right (typeRecords_eq_ok htypes) hrecord
    exact (DefinitionRecord.isOf_of_ofDefinition_eq_ok hentry).flagged
  exact hsorts.flagged hflagged (sequencesFlagged_of_normalize_eq_ok h)
    (flagged_directiveRecords h) (AppliedDirectives.flagged_of_eq happlied)

end Schema

end GraphQLIR
