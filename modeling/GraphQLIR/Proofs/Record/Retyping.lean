import GraphQLIR.Proofs.Record.Normalization
/-!
# Records under another catalog

A catalog reaches a record only by the classification of its types. If a second catalog classifies
every type as the first one does and then changes the result, its records are those of the first
one with their types changed in this way, and it refuses the same definitions for the same faults.
-/

namespace GraphQLIR

/-- The second catalog classifies like the first one and changes every result. -/
def Catalog.Retypes (first second : Catalog) (change : TypeRef → TypeRef) : Prop :=
  ∀ type, second.classify type = change <$> first.classify type

theorem Catalog.retypes_id {first second : Catalog}
    (h : ∀ name, first.get? name = second.get? name) : first.Retypes second id := by
  intro type
  rw [id_map, classify_congr (h type.innermost)]

/-! ## Changing the types in a record -/

def ArgumentRecord.mapType (change : TypeRef → TypeRef) (record : ArgumentRecord) :
    ArgumentRecord :=
  { record with type := change record.type }

def FieldRecord.mapTypes (change : TypeRef → TypeRef) (record : FieldRecord) : FieldRecord :=
  { record with
    arguments := record.arguments.map (ArgumentRecord.mapType change)
    type := change record.type }

def DirectiveRecord.mapTypes (change : TypeRef → TypeRef) (record : DirectiveRecord) :
    DirectiveRecord :=
  { record with arguments := record.arguments.map (ArgumentRecord.mapType change) }

def DefinitionRecord.mapTypes (change : TypeRef → TypeRef) : DefinitionRecord → DefinitionRecord
  | .object record =>
    .object { record with fields := record.fields.map (FieldRecord.mapTypes change) }
  | .inputObject record =>
    .inputObject { record with fields := record.fields.map (FieldRecord.mapTypes change) }
  | .interface record =>
    .interface { record with fields := record.fields.map (FieldRecord.mapTypes change) }
  | .union record => .union record
  | .enum record => .enum record
  | .scalar record => .scalar record

@[simp] theorem FieldRecord.mapTypes_id : mapTypes id = id := by
  funext record
  change { record with arguments := record.arguments.map id } = record
  rw [List.map_id]

@[simp] theorem DirectiveRecord.mapTypes_id : mapTypes id = id := by
  funext record
  change { record with arguments := record.arguments.map id } = record
  rw [List.map_id]

namespace DefinitionRecord

@[simp] theorem mapTypes_id : mapTypes id = id := by
  funext record
  cases record <;> simp [mapTypes]

@[simp] theorem kind_mapTypes (change : TypeRef → TypeRef) (record : DefinitionRecord) :
    (record.mapTypes change).kind = record.kind := by
  cases record <;> rfl

theorem mapTypes_ofFields [NumberReader] (change : TypeRef → TypeRef) (name : String)
    (definition : TypeDefinition) (fields : List FieldRecord) :
    (ofFields name definition fields).mapTypes change =
      ofFields name definition (fields.map (FieldRecord.mapTypes change)) := by
  unfold ofFields
  cases definition.body <;> simp [mapTypes]

end DefinitionRecord

/-! ## Normalization under the second catalog -/

section

variable [NumberReader] {first second : Catalog} {change : TypeRef → TypeRef}

namespace ArgumentRecord

theorem ofDefinition_retyped (h : first.Retypes second change) (name : String)
    (definition : InputValueDefinition) :
    ofDefinition second name definition = mapType change <$> ofDefinition first name definition := by
  unfold ofDefinition
  rw [h definition.type]
  simp only [bind_map_left, map_bind, map_pure]
  rfl

theorem ofDefinitions_retyped (h : first.Retypes second change)
    (definitions : List (String × InputValueDefinition)) :
    ofDefinitions second definitions =
      List.map (mapType change) <$> ofDefinitions first definitions := by
  unfold ofDefinitions
  apply mapM_eq_map
  intro entry _
  exact ofDefinition_retyped h entry.1 entry.2

end ArgumentRecord

theorem FieldRecord.ofDefinition_retyped (h : first.Retypes second change) (name : String)
    (definition : FieldDefinition) :
    ofDefinition second name definition =
      mapTypes change <$> ofDefinition first name definition := by
  unfold ofDefinition
  rw [ArgumentRecord.ofDefinitions_retyped h, h definition.type]
  simp only [bind_map_left, map_bind, map_pure, List.isEmpty_map]
  rfl

namespace DirectiveRecord

theorem ofDefinition_retyped (h : first.Retypes second change) (name : String)
    (definition : DirectiveDefinition) :
    ofDefinition second name definition =
      mapTypes change <$> ofDefinition first name definition := by
  unfold ofDefinition
  rw [ArgumentRecord.ofDefinitions_retyped h]
  simp only [bind_map_left, map_bind, map_pure, List.isEmpty_map]
  rfl

theorem mapM_retyped (h : first.Retypes second change) (entries : Entries DirectiveDefinition) :
    (entries.mapM fun (name, definition) => ofDefinition second name definition) =
      List.map (mapTypes change) <$>
        entries.mapM fun (name, definition) => ofDefinition first name definition := by
  apply mapM_eq_map
  intro entry _
  exact ofDefinition_retyped h entry.1 entry.2

end DirectiveRecord

namespace DefinitionRecord

theorem ofDefinition_retyped (h : first.Retypes second change) (name : String)
    (definition : TypeDefinition) :
    ofDefinition second name definition =
      mapTypes change <$> ofDefinition first name definition := by
  have hfields : (definition.body.fields.mapM fun entry =>
        FieldRecord.ofDefinition second entry.1 entry.2) =
      List.map (FieldRecord.mapTypes change) <$> definition.body.fields.mapM fun entry =>
        FieldRecord.ofDefinition first entry.1 entry.2 := by
    apply mapM_eq_map
    intro entry _
    exact FieldRecord.ofDefinition_retyped h entry.1 entry.2
  rw [ofDefinition_eq, ofDefinition_eq, hfields, ← comp_map, ← comp_map]
  congr 1
  funext fields
  exact (mapTypes_ofFields change name definition fields).symm

theorem mapM_retyped (h : first.Retypes second change) (entries : Entries TypeDefinition) :
    (entries.mapM fun (name, definition) => ofDefinition second name definition) =
      List.map (mapTypes change) <$>
        entries.mapM fun (name, definition) => ofDefinition first name definition := by
  apply mapM_eq_map
  intro entry _
  exact ofDefinition_retyped h entry.1 entry.2

end DefinitionRecord

end

end GraphQLIR
