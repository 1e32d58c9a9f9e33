import GraphQLIR.Proofs.Json.Parts
import GraphQLIR.Proofs.Record.Normalization
/-!
# Equality of records

Records are equal just if their JSON forms are, as long as no default value is an explicit null:
the form of such a value is that of an absent one.
-/

namespace GraphQLIR

open Json

/-! ## Arguments and fields -/

namespace ArgumentRecord

/-- The default value is not an explicit null. -/
def DefaultNotNull (record : ArgumentRecord) : Prop :=
  record.default ≠ some .null

theorem same_toJson_iff {a b : ArgumentRecord} (ha : a.DefaultNotNull) (hb : b.DefaultNotNull) :
    a.toJson.same b.toJson = true ↔ (a == b) = true := by
  have hnodup : keys.Nodup := by decide
  have hbeq : (a == b) = (a.name == b.name && (a.description == b.description &&
      (a.type == b.type && (a.default == b.default && a.directives == b.directives)))) := rfl
  rw [toJson, toJson, same_obj_iff_agree hnodup rfl rfl, hbeq]
  simp [namedMembers, same_ofOption_id_iff ha hb]

theorem same_ofList_iff {xs ys : List ArgumentRecord} (hxs : ∀ x ∈ xs, x.DefaultNotNull)
    (hys : ∀ y ∈ ys, y.DefaultNotNull) :
    (ofList toJson xs).same (ofList toJson ys) = true ↔ (xs == ys) = true :=
  Json.same_ofList_iff fun x hx y hy => same_toJson_iff (hxs x hx) (hys y hy)

end ArgumentRecord

namespace FieldRecord

def DefaultsNotNull (record : FieldRecord) : Prop :=
  ∀ argument ∈ record.arguments, argument.DefaultNotNull

theorem same_toJson_iff {a b : FieldRecord} (ha : a.DefaultsNotNull) (hb : b.DefaultsNotNull) :
    a.toJson.same b.toJson = true ↔ (a == b) = true := by
  have hnodup : keys.Nodup := by decide
  have hbeq : (a == b) = (a.name == b.name && (a.description == b.description &&
      (a.arguments == b.arguments && (a.hasArguments == b.hasArguments &&
        (a.type == b.type && a.directives == b.directives))))) := rfl
  rw [toJson, toJson, same_obj_iff_agree hnodup rfl rfl, hbeq]
  simp [namedMembers, argumentMembers, ArgumentRecord.same_ofList_iff ha hb]

theorem same_ofList_iff {xs ys : List FieldRecord} (hxs : ∀ x ∈ xs, x.DefaultsNotNull)
    (hys : ∀ y ∈ ys, y.DefaultsNotNull) :
    (ofList toJson xs).same (ofList toJson ys) = true ↔ (xs == ys) = true :=
  Json.same_ofList_iff fun x hx y hy => same_toJson_iff (hxs x hx) (hys y hy)

end FieldRecord

theorem EnumValueRecord.same_toJson_iff (a b : EnumValueRecord) :
    a.toJson.same b.toJson = true ↔ (a == b) = true := by
  have hnodup : keys.Nodup := by decide
  have hbeq : (a == b) = (a.name == b.name && (a.description == b.description &&
      a.directives == b.directives)) := rfl
  rw [toJson, toJson, same_obj_iff_agree hnodup rfl rfl, hbeq]
  simp

/-! ## Types -/

namespace ObjectRecord

def DefaultsNotNull (record : ObjectRecord) : Prop :=
  ∀ field ∈ record.fields, field.DefaultsNotNull

theorem same_toJson_iff {a b : ObjectRecord} (ha : a.DefaultsNotNull) (hb : b.DefaultsNotNull) :
    a.toJson.same b.toJson = true ↔ (a == b) = true := by
  have hnodup : keys.Nodup := by decide
  have hbeq : (a == b) = (a.name == b.name && (a.description == b.description &&
      (a.fields == b.fields && (a.hasFields == b.hasFields && (a.isInput == b.isInput &&
        (a.interfaces == b.interfaces && (a.hasInterfaces == b.hasInterfaces &&
          a.directives == b.directives))))))) := rfl
  rw [toJson, toJson, same_obj_iff_agree hnodup rfl rfl, hbeq]
  simp [namedMembers, fieldMembers, interfaceMembers, FieldRecord.same_ofList_iff ha hb]

end ObjectRecord

namespace InterfaceRecord

def DefaultsNotNull (record : InterfaceRecord) : Prop :=
  ∀ field ∈ record.fields, field.DefaultsNotNull

theorem same_toJson_iff {a b : InterfaceRecord} (ha : a.DefaultsNotNull)
    (hb : b.DefaultsNotNull) : a.toJson.same b.toJson = true ↔ (a == b) = true := by
  have hnodup : keys.Nodup := by decide
  have hbeq : (a == b) = (a.name == b.name && (a.description == b.description &&
      (a.fields == b.fields && (a.hasFields == b.hasFields && (a.interfaces == b.interfaces &&
        (a.hasInterfaces == b.hasInterfaces && a.directives == b.directives)))))) := rfl
  rw [toJson, toJson, same_obj_iff_agree hnodup rfl rfl, hbeq]
  simp [namedMembers, fieldMembers, interfaceMembers, FieldRecord.same_ofList_iff ha hb]

end InterfaceRecord

theorem UnionRecord.same_toJson_iff (a b : UnionRecord) :
    a.toJson.same b.toJson = true ↔ (a == b) = true := by
  have hnodup : keys.Nodup := by decide
  have hbeq : (a == b) = (a.name == b.name && (a.description == b.description &&
      (a.members == b.members && a.directives == b.directives))) := rfl
  rw [toJson, toJson, same_obj_iff_agree hnodup rfl rfl, hbeq]
  simp [namedMembers]

theorem EnumRecord.same_toJson_iff (a b : EnumRecord) :
    a.toJson.same b.toJson = true ↔ (a == b) = true := by
  have hnodup : keys.Nodup := by decide
  have hbeq : (a == b) = (a.name == b.name && (a.description == b.description &&
      (a.values == b.values && a.directives == b.directives))) := rfl
  have hvalues : (ofList EnumValueRecord.toJson a.values).same
      (ofList EnumValueRecord.toJson b.values) = true ↔ (a.values == b.values) = true :=
    same_ofList_iff fun x _ y _ => EnumValueRecord.same_toJson_iff x y
  rw [toJson, toJson, same_obj_iff_agree hnodup rfl rfl, hbeq]
  simp [namedMembers, hvalues]

theorem ScalarRecord.same_toJson_iff (a b : ScalarRecord) :
    a.toJson.same b.toJson = true ↔ (a == b) = true := by
  have hnodup : keys.Nodup := by decide
  have hbeq : (a == b) = (a.name == b.name && (a.description == b.description &&
      a.directives == b.directives)) := rfl
  rw [toJson, toJson, same_obj_iff_agree hnodup rfl rfl, hbeq]
  simp [namedMembers]

/-! ## Directives -/

theorem DirectiveLocation.ofName?_name (location : DirectiveLocation) :
    ofName? location.name = some location := by
  cases location <;> rfl

theorem DirectiveLocation.name_injective : Function.Injective name := by
  intro a b h
  have hboth := ofName?_name a
  rw [h, ofName?_name] at hboth
  exact (Option.some.inj hboth).symm

namespace DirectiveRecord

@[simp] theorem agree_locationMembers_iff (a b : DirectiveLocations) :
    Agree (locationMembers a) (locationMembers b) ↔ (a == b) = true := by
  have hbeq : (a == b) = DirectiveLocation.all.all fun location =>
      a.isOn location == b.isOn location := rfl
  rw [Agree, locationMembers, locationMembers, List.forall₂_map_left_iff,
    List.forall₂_map_right_iff, List.forall₂_same, hbeq, List.all_eq_true]
  simp

def DefaultsNotNull (record : DirectiveRecord) : Prop :=
  ∀ argument ∈ record.arguments, argument.DefaultNotNull

theorem same_toJson_iff {a b : DirectiveRecord} (ha : a.DefaultsNotNull)
    (hb : b.DefaultsNotNull) : a.toJson.same b.toJson = true ↔ (a == b) = true := by
  have hnodup : keys.Nodup := by decide
  have hbeq : (a == b) = (a.name == b.name && (a.description == b.description &&
      (a.locations == b.locations && (a.arguments == b.arguments &&
        (a.hasArguments == b.hasArguments &&
          (a.repeatable == b.repeatable && a.on == b.on)))))) := rfl
  have hlocations : a.locations.map DirectiveLocation.name =
      b.locations.map DirectiveLocation.name ↔ a.locations = b.locations :=
    (List.map_injective_iff.2 DirectiveLocation.name_injective).eq_iff
  rw [toJson, toJson, same_obj_iff_agree hnodup rfl rfl, hbeq]
  simp [namedMembers, argumentMembers, ArgumentRecord.same_ofList_iff ha hb, hlocations]

end DirectiveRecord

/-! ## Schemas -/

namespace SchemaRecords

variable {records : SchemaRecords}

def DefaultsNotNull (records : SchemaRecords) : Prop :=
  ∀ argument ∈ records.arguments, argument.DefaultNotNull

theorem DefaultsNotNull.fields (h : records.DefaultsNotNull) :
    ∀ field ∈ records.fields, field.DefaultsNotNull :=
  fun _ hfield _ hargument =>
    h _ (List.mem_append_left _ (List.mem_flatMap.2 ⟨_, hfield, hargument⟩))

theorem DefaultsNotNull.objects (h : records.DefaultsNotNull) :
    ∀ record ∈ records.objects, record.DefaultsNotNull :=
  fun _ hrecord _ hfield => h.fields _ <| List.mem_append_left _ <| List.mem_append_left _ <|
    List.mem_flatMap.2 ⟨_, hrecord, hfield⟩

theorem DefaultsNotNull.inputObjects (h : records.DefaultsNotNull) :
    ∀ record ∈ records.inputObjects, record.DefaultsNotNull :=
  fun _ hrecord _ hfield => h.fields _ <| List.mem_append_left _ <| List.mem_append_right _ <|
    List.mem_flatMap.2 ⟨_, hrecord, hfield⟩

theorem DefaultsNotNull.interfaces (h : records.DefaultsNotNull) :
    ∀ record ∈ records.interfaces, record.DefaultsNotNull :=
  fun _ hrecord _ hfield =>
    h.fields _ (List.mem_append_right _ (List.mem_flatMap.2 ⟨_, hrecord, hfield⟩))

theorem DefaultsNotNull.directiveRecords (h : records.DefaultsNotNull) :
    ∀ record ∈ records.directiveRecords, record.DefaultsNotNull :=
  fun _ hrecord _ hargument =>
    h _ (List.mem_append_right _ (List.mem_flatMap.2 ⟨_, hrecord, hargument⟩))

theorem same_toJson_iff {a b : SchemaRecords} (ha : a.DefaultsNotNull) (hb : b.DefaultsNotNull) :
    a.toJson.same b.toJson = true ↔ (a == b) = true := by
  have hnodup : keys.Nodup := by decide
  have hbeq : (a == b) = (a.objects == b.objects && (a.inputObjects == b.inputObjects &&
      (a.enums == b.enums && (a.unions == b.unions && (a.interfaces == b.interfaces &&
        (a.scalars == b.scalars && (a.directiveRecords == b.directiveRecords &&
          (a.hasObjects == b.hasObjects && (a.hasInputObjects == b.hasInputObjects &&
            (a.hasEnums == b.hasEnums && (a.hasUnions == b.hasUnions &&
              (a.hasInterfaces == b.hasInterfaces && (a.hasScalars == b.hasScalars &&
                (a.hasDirectiveRecords == b.hasDirectiveRecords &&
                  a.directives == b.directives)))))))))))))) := rfl
  have hobjects := same_ofList_iff fun x hx y hy =>
    ObjectRecord.same_toJson_iff (ha.objects x hx) (hb.objects y hy)
  have hinputs := same_ofList_iff fun x hx y hy =>
    ObjectRecord.same_toJson_iff (ha.inputObjects x hx) (hb.inputObjects y hy)
  have henums := same_ofList_iff fun x (_ : x ∈ a.enums) y (_ : y ∈ b.enums) =>
    EnumRecord.same_toJson_iff x y
  have hunions := same_ofList_iff fun x (_ : x ∈ a.unions) y (_ : y ∈ b.unions) =>
    UnionRecord.same_toJson_iff x y
  have hinterfaces := same_ofList_iff fun x hx y hy =>
    InterfaceRecord.same_toJson_iff (ha.interfaces x hx) (hb.interfaces y hy)
  have hscalars := same_ofList_iff fun x (_ : x ∈ a.scalars) y (_ : y ∈ b.scalars) =>
    ScalarRecord.same_toJson_iff x y
  have hdirectives := same_ofList_iff fun x hx y hy =>
    DirectiveRecord.same_toJson_iff (ha.directiveRecords x hx) (hb.directiveRecords y hy)
  rw [toJson, toJson, same_obj_iff_agree hnodup rfl rfl, hbeq]
  simp only [sequenceMembers, List.cons_append, List.nil_append, agree_cons_iff, same_bool_iff,
    Bool.and_eq_true, beq_iff_eq, AppliedDirectives.agree_members_iff, hobjects, hinputs, henums,
    hunions, hinterfaces, hscalars, hdirectives]

end SchemaRecords

end GraphQLIR
