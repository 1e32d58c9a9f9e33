import GraphQLIR.Proofs.Record.Retyping
import GraphQLIR.Proofs.Schema.Partition
import GraphQLIR.Proofs.Selection.Normalization
/-!
# Editing one type

Replacing the definition of one type where it stands changes the record of this type. Every other
record and every directive stays as it is and at its place, except that a reference to the type
has the kind of the new definition.
-/

namespace GraphQLIR

/-- The type as one of this kind, if it is named so. Nothing but the kind changes, which shows in
the kind flags only. -/
def TypeRef.reclassify (name : String) (kind : TypeKind) (type : TypeRef) : TypeRef :=
  if type.name = name then { type with kind := kind } else type

namespace SchemaRecords

/-- The sequence of a kind without the record of `name`. -/
def others (records : SchemaRecords) (name : String) (kind : TypeKind) : List DefinitionRecord :=
  (records.sequence kind).filter fun record => record.name != name

/-- Apart from the record of `name`, the second records are the first ones with changed types, in
the same order. -/
structure AgreeExcept (name : String) (change : TypeRef → TypeRef) (first second : SchemaRecords) :
    Prop where
  others_eq : ∀ kind, second.others name kind =
    (first.others name kind).map (DefinitionRecord.mapTypes change)
  directiveRecords_eq : second.directiveRecords =
    first.directiveRecords.map (DirectiveRecord.mapTypes change)
  directives_eq : second.directives = first.directives

theorem Sorts.others_eq {records : SchemaRecords} {types : List DefinitionRecord}
    (h : records.Sorts types) (name : String) (kind : TypeKind) :
    records.others name kind =
      (types.filter fun record => record.name != name).filter fun record =>
        record.kind == kind := by
  unfold others
  rw [h.sequence_eq, List.filter_comm]

end SchemaRecords

namespace Schema

variable {schema : Schema} {name : String}

/-- The schema with this definition in the place of that of `name`. -/
def redefine (schema : Schema) (name : String) (definition : TypeDefinition) : Schema :=
  { schema with types := schema.types.insert name definition }

/-! ## The catalog after an edit -/

theorem get?_catalog_redefine (schema : Schema) (name : String) (definition : TypeDefinition)
    (other : String) :
    (schema.redefine name definition).catalog.get? other =
      if other = name then some definition.body.kind else schema.catalog.get? other := by
  have hget : (schema.redefine name definition).types.get? other =
      if other = name then some definition else schema.types.get? other :=
    Entries.get?_insert _ _ _ _
  rw [get?_catalog, get?_catalog, hget]
  split <;> rfl

theorem retypes_redefine {old : TypeDefinition} (hget : schema.types.get? name = some old)
    (new : TypeDefinition) :
    schema.catalog.Retypes (schema.redefine name new).catalog
      (TypeRef.reclassify name new.body.kind) := by
  intro type
  by_cases hname : type.innermost = name
  · unfold Catalog.classify Catalog.kind
    rw [get?_catalog_redefine, if_pos hname, get?_catalog, hname, hget]
    simp [TypeRef.reclassify]
  · have hsame : (schema.redefine name new).catalog.get? type.innermost =
        schema.catalog.get? type.innermost := by
      rw [get?_catalog_redefine, if_neg hname]
    rw [Catalog.classify_congr hsame]
    cases hclassify : schema.catalog.classify type with
    | error fault => rfl
    | ok classified =>
      have hother : classified.name ≠ name := by
        rw [(Catalog.classify_eq_ok hclassify).1]
        exact hname
      simp [TypeRef.reclassify, hother]

theorem retypes_redefine_of_kind_eq {old new : TypeDefinition}
    (hget : schema.types.get? name = some old) (hkind : new.body.kind = old.body.kind) :
    schema.catalog.Retypes (schema.redefine name new).catalog id := by
  apply Catalog.retypes_id
  intro other
  rw [get?_catalog_redefine]
  by_cases hother : other = name
  · rw [if_pos hother, get?_catalog, hother, hget, hkind]
    rfl
  · rw [if_neg hother]

/-! ## The records after an edit -/

theorem filter_ownTypes_redefine (schema : Schema) (name : String) (definition : TypeDefinition) :
    ((schema.redefine name definition).ownTypes.filter fun entry => entry.1 != name) =
      schema.ownTypes.filter fun entry => entry.1 != name := by
  have hentries : ((schema.redefine name definition).types.entries.filter fun entry =>
        entry.1 != name) = schema.types.entries.filter fun entry => entry.1 != name :=
    Entries.filter_key_ne_insert _ _ _
  unfold ownTypes
  rw [List.filter_comm, hentries, List.filter_comm]

section

variable [NumberReader]

/-- The records of all types but one are those of the other definitions. -/
theorem mapM_others_eq_ok {types : List DefinitionRecord} (h : schema.typeRecords = .ok types)
    (name : String) :
    ((schema.ownTypes.filter fun entry => entry.1 != name).mapM fun (name, definition) =>
        DefinitionRecord.ofDefinition schema.catalog name definition) =
      .ok (types.filter fun record => record.name != name) := by
  refine mapM_eq_ok_iff.2 (List.rel_filter (fun entry record hrecord => ?_) (typeRecords_eq_ok h))
  show (entry.1 != name) = true ↔ (record.name != name) = true
  rw [(DefinitionRecord.isOf_of_ofDefinition_eq_ok hrecord).name_eq]

theorem agreeExcept_of_retypes {new : TypeDefinition} {first second : SchemaRecords}
    {change : TypeRef → TypeRef}
    (h : schema.catalog.Retypes (schema.redefine name new).catalog change)
    (hfirst : schema.normalize = .ok first)
    (hsecond : (schema.redefine name new).normalize = .ok second) :
    first.AgreeExcept name change second := by
  obtain ⟨types, htypes, hdirectives, hsorts, happlied⟩ := normalize_eq_ok hfirst
  obtain ⟨edited, hedited, heditedDirectives, heditedSorts, heditedApplied⟩ :=
    normalize_eq_ok hsecond
  have hothers : (edited.filter fun record => record.name != name) =
      (types.filter fun record => record.name != name).map (DefinitionRecord.mapTypes change) := by
    have hleft := mapM_others_eq_ok hedited name
    rw [filter_ownTypes_redefine, DefinitionRecord.mapM_retyped h,
      mapM_others_eq_ok htypes name] at hleft
    exact (Except.ok.inj hleft).symm
  constructor
  · intro kind
    rw [heditedSorts.others_eq, hsorts.others_eq, hothers, List.filter_map]
    congr 2
    funext record
    exact congrArg (· == kind) (record.kind_mapTypes change)
  · have hown : (schema.redefine name new).ownDirectives = schema.ownDirectives := rfl
    rw [directiveRecords_eq] at hdirectives heditedDirectives
    rw [hown, DirectiveRecord.mapM_retyped h, hdirectives] at heditedDirectives
    exact (Except.ok.inj heditedDirectives).symm
  · rw [happlied, heditedApplied]
    rfl

/-- Whether either definition of `name` is built in does not matter. -/
theorem normalize_redefine {old new : TypeDefinition} {first second : SchemaRecords}
    (hget : schema.types.get? name = some old) (hfirst : schema.normalize = .ok first)
    (hsecond : (schema.redefine name new).normalize = .ok second) :
    first.AgreeExcept name (TypeRef.reclassify name new.body.kind) second ∧
      (new.body.kind = old.body.kind →
        (∀ kind, second.others name kind = first.others name kind) ∧
          second.directiveRecords = first.directiveRecords) := by
  refine ⟨agreeExcept_of_retypes (retypes_redefine hget new) hfirst hsecond, fun hkind => ?_⟩
  have hsame : first.AgreeExcept name id second :=
    agreeExcept_of_retypes (retypes_redefine_of_kind_eq hget hkind) hfirst hsecond
  constructor
  · intro kind
    rw [hsame.others_eq, DefinitionRecord.mapTypes_id, List.map_id]
  · rw [hsame.directiveRecords_eq, DirectiveRecord.mapTypes_id, List.map_id]

end

section

open NumberReader.Nearest

/-- The enum `Genre` becomes a scalar. -/
theorem normalize_redefine_librarySchema :
    ∃ old first second, librarySchema.types.get? "Genre" = some old ∧
      librarySchema.normalize = .ok first ∧
      (librarySchema.redefine "Genre" ⟨none, false, [], .scalar⟩).normalize = .ok second ∧
      first.directiveRecords.flatMap DirectiveRecord.typeRefs =
        [⟨"Genre", "Genre", .enum, false, false, false⟩] ∧
      second.directiveRecords.flatMap DirectiveRecord.typeRefs =
        [⟨"Genre", "Genre", .scalar, false, false, false⟩] ∧
      first.AgreeExcept "Genre" (TypeRef.reclassify "Genre" .scalar) second :=
  ⟨_, _, _, rfl, rfl, rfl, rfl, rfl,
    (@normalize_redefine librarySchema "Genre" _ _ ⟨none, false, [], .scalar⟩ _ _ rfl rfl rfl).1⟩

end

end Schema

end GraphQLIR
