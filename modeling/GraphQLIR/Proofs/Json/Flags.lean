import GraphQLIR.AppliedDirectives
import GraphQLIR.Catalog
import Mathlib.Data.List.Basic
/-!
# Derived flags

Some members of an object are made from others: whether a list has items, of which kind a type or an
operation is, whether a field is a leaf. What an object has to fulfil for its flags to be right is
stated once, for objects of every shape, and shown of the blocks of members that objects are put
together from.
-/

namespace GraphQLIR

namespace Json

/-! ## Records at every depth -/

/-- Members with names or values that a user chose: the arguments of directives and default
values. -/
def freeKeys : List String :=
  ["directives", "defaultValue"]

mutual

/-- The objects in a value, at every depth, but those that a user wrote. -/
def records : Json → List (Entries Json)
  | .obj members => members :: memberRecords members
  | .arr items => itemRecords items
  | .null | .bool _ | .num _ | .str _ => []

def itemRecords : List Json → List (Entries Json)
  | [] => []
  | item :: rest => item.records ++ itemRecords rest

def memberRecords : Entries Json → List (Entries Json)
  | [] => []
  | (key, value) :: rest =>
    (if key ∈ freeKeys then [] else value.records) ++ memberRecords rest

end

theorem records_ofList {α : Type} (encode : α → Json) (values : List α) :
    (ofList encode values).records = values.flatMap fun value => (encode value).records := by
  change itemRecords (values.map encode) = _
  induction values with
  | nil => rfl
  | cons value rest ih => rw [List.map_cons, itemRecords, ih, List.flatMap_cons]

@[simp] theorem records_ofOption_str (value : Option String) : (ofOption .str value).records = [] := by
  cases value <;> rfl

@[simp] theorem memberRecords_append (first second : Entries Json) :
    memberRecords (first ++ second) = memberRecords first ++ memberRecords second := by
  induction first with
  | nil => rfl
  | cons entry rest ih =>
    rw [List.cons_append, memberRecords, memberRecords, ih, List.append_assoc]

/-- Whether a value is a list or map that is not empty. -/
def hasItems : Json → Bool
  | .arr items => !items.isEmpty
  | .obj members => !members.isEmpty
  | .null | .bool _ | .num _ | .str _ => false

theorem hasItems_ofList {α : Type} (encode : α → Json) (values : List α) :
    (ofList encode values).hasItems = !values.isEmpty := by
  simp [ofList, hasItems]

end Json

/-! ## Right flags -/

/-- The member of this name is the boolean true. -/
def Sets (record : Entries Json) (flag : String) : Prop :=
  record.get? flag = some (.bool true)

/-- The record has all of these flags, and exactly one of them is set. -/
def SetsOne (record : Entries Json) (flags : List String) : Prop :=
  ∃ flag ∈ flags, ∀ other ∈ flags, record.get? other = some (.bool (other == flag))

/-- The flags that are about a list or map, each with the name of what it is about. -/
def listFlags : List (String × String) :=
  [("hasFields", "fields"), ("hasInterfaces", "interfaces"), ("hasArguments", "arguments"),
    ("hasTypes", "types"), ("hasInputTypes", "inputTypes"), ("hasEnums", "enums"),
    ("hasUnions", "unions"), ("hasScalars", "scalars"),
    ("hasDefinedDirectives", "definedDirectives"), ("hasVariables", "variables"),
    ("hasFragments", "fragments"), ("hasOperations", "operations"),
    ("hasFragmentsSpread", "fragmentsSpread"), ("hasInlineFragments", "inlineFragments"),
    ("hasInnerModels", "innerModels"), ("usesDirectives", "directives")]

def kindFlags : List String :=
  ["isType", "isScalar", "isInterface", "isUnion", "isInputType", "isEnum"]

def operationFlags : List String :=
  ["isQuery", "isMutation", "isSubscription"]

/-- A flag about a list or map stands beside it, and is set just if it has items. -/
structure ListFlags (record : Entries Json) : Prop where
  agree : ∀ pair ∈ listFlags,
    record.get? pair.1 = (record.get? pair.2).map fun list => .bool list.hasItems
  /-- The flags above are all that there are. -/
  listed : ∀ key ∈ record.keys, "has".toList <+: key.toList → key ∈ listFlags.map Prod.fst

/-- All flags of a record are right. A record that refers to a type has the text of it as `raw`, one
of an operation has an `operationType`, and a field among selections has `isField` set. -/
structure RecordFlags (record : Entries Json) : Prop where
  lists : ListFlags record
  kind : record.get? "raw" ≠ none → SetsOne record kindFlags
  nullable : Sets record "isNullableArray" → Sets record "isArray"
  operation : record.get? "operationType" ≠ none → SetsOne record operationFlags
  leaf : record.get? "raw" ≠ none → record.get? "isLeaf" ≠ none →
    (Sets record "isLeaf" ↔ Sets record "isScalar" ∨ Sets record "isEnum")
  selections : Sets record "isField" →
    ∃ items, record.get? "selectionSet" = some (.arr items) ∧ (Sets record "isLeaf" ↔ items = [])
  model : record.get? "raw" ≠ none → record.get? "modelType" ≠ none →
    (Sets record "isLeaf" ↔ record.get? "modelType" = some .null)

theorem sets_iff {record : Entries Json} {flag : String} {value : Bool}
    (h : record.get? flag = some (.bool value)) : Sets record flag ↔ value = true := by
  simp [Sets, h]

theorem not_sets {record : Entries Json} {flag : String} (h : record.get? flag = none) :
    ¬ Sets record flag := by
  simp [Sets, h]

/-! ## Flags about lists -/

theorem listFlags_distinct : ∀ pair ∈ listFlags, ∀ other ∈ listFlags,
    pair.2 ≠ other.1 ∧ (pair.1 = other.1 ↔ pair.2 = other.2) := by
  decide

theorem not_has_of_mem_listFlags : ∀ pair ∈ listFlags, ¬ "has".toList <+: pair.2.toList := by
  decide

/-- Neither a flag about a list nor the name of what such a flag is about. -/
def IsPlainKey (key : String) : Prop :=
  (∀ pair ∈ listFlags, key ≠ pair.1 ∧ key ≠ pair.2) ∧ ¬ "has".toList <+: key.toList

instance : DecidablePred IsPlainKey :=
  fun key => inferInstanceAs (Decidable
    ((∀ pair ∈ listFlags, key ≠ pair.1 ∧ key ≠ pair.2) ∧ ¬ "has".toList <+: key.toList))

namespace ListFlags

/-- Which flags a block has is seen from its keys. -/
theorem of_keys {block : Entries Json} (keys : List String) (hkeys : block.keys = keys)
    (hlisted : ∀ key ∈ keys, "has".toList <+: key.toList → key ∈ listFlags.map Prod.fst)
    (hagree : (listFlags.map fun pair => block.get? pair.1) =
      listFlags.map fun pair => (block.get? pair.2).map fun list => .bool list.hasItems) :
    ListFlags block where
  agree := List.map_inj_left.1 hagree
  listed := hkeys ▸ hlisted

theorem nil : ListFlags [] where
  agree _ _ := rfl
  listed := List.forall_mem_nil _

theorem append {first second : Entries Json} (hfirst : ListFlags first)
    (hsecond : ListFlags second) : ListFlags (first ++ second) where
  agree := by
    intro pair hpair
    rw [Entries.get?_append, Entries.get?_append, hfirst.agree pair hpair,
      hsecond.agree pair hpair, Option.map_or]
  listed := by
    intro key hkey
    rw [Entries.keys, List.map_append, List.mem_append] at hkey
    exact hkey.elim (hfirst.listed key) (hsecond.listed key)

/-- A member that no flag is about. -/
theorem cons {key : String} (hkey : IsPlainKey key) {value : Json} {rest : Entries Json}
    (hrest : ListFlags rest) : ListFlags ((key, value) :: rest) := by
  have hfirst : ListFlags [(key, value)] := by
    refine ⟨fun pair hpair => ?_, fun other hother hhas => ?_⟩
    · obtain ⟨hflag, hlist⟩ := hkey.1 pair hpair
      simp [Entries.get?, if_neg hflag, if_neg hlist]
    · rw [List.mem_singleton.1 hother] at hhas
      exact absurd hhas hkey.2
  exact append hfirst hrest

theorem single {key : String} (hkey : IsPlainKey key) {value : Json} : ListFlags [(key, value)] :=
  cons hkey nil

theorem of_plain {block : Entries Json} (keys : List String) (hkeys : block.keys = keys)
    (hplain : ∀ key ∈ keys, IsPlainKey key) : ListFlags block := by
  subst hkeys
  induction block with
  | nil => exact nil
  | cons entry rest ih =>
    obtain ⟨hfirst, hrest⟩ := List.forall_mem_cons.1 hplain
    exact cons hfirst (ih hrest)

/-- A list with its flag. -/
theorem pair {flag list : String} (hmem : (flag, list) ∈ listFlags) {value : Json} {isSet : Bool}
    (hset : isSet = value.hasItems) : ListFlags [(list, value), (flag, .bool isSet)] where
  agree := by
    intro other hother
    obtain ⟨hlist, hsame⟩ := listFlags_distinct (flag, list) hmem other hother
    have hflag : flag ≠ other.2 := (listFlags_distinct other hother (flag, list) hmem).1.symm
    by_cases h : list = other.2
    · simp [Entries.get?, if_neg hlist, if_pos (hsame.2 h), if_pos h, hset]
    · have hother : flag ≠ other.1 := fun heq => h (hsame.1 heq)
      simp [Entries.get?, if_neg hlist, if_neg hflag, if_neg hother, if_neg h]
  listed := by
    intro key hkey hhas
    rcases List.mem_pair.1 hkey with rfl | rfl
    · exact absurd hhas (not_has_of_mem_listFlags (flag, key) hmem)
    · exact List.mem_map_of_mem hmem

theorem ofList {flag list : String} (hmem : (flag, list) ∈ listFlags) {α : Type}
    {encode : α → Json} {values : List α} {isSet : Bool} (hset : isSet = !values.isEmpty) :
    ListFlags [(list, .ofList encode values), (flag, .bool isSet)] :=
  .pair hmem (hset.trans (Json.hasItems_ofList encode values).symm)

end ListFlags

/-! ## Blocks of members -/

namespace AppliedDirectives

/-- The flag tells whether there are directives. -/
def Flagged (applied : AppliedDirectives) : Prop :=
  applied.usesDirectives = !applied.isEmpty

theorem flagged_ofApplications [NumberReader] (applications : List DirectiveApplication) :
    (ofApplications applications).Flagged := rfl

theorem Flagged.listFlags_members {applied : AppliedDirectives} (h : applied.Flagged) :
    ListFlags applied.members :=
  .pair (by decide) (h.trans (by simp [Json.hasItems, isEmpty, OrderedMap.isEmpty]))

end AppliedDirectives

namespace TypeKind

/-- The flag of this kind. -/
def flag : TypeKind → String
  | .object => "isType"
  | .scalar => "isScalar"
  | .interface => "isInterface"
  | .union => "isUnion"
  | .inputObject => "isInputType"
  | .enum => "isEnum"

theorem flag_mem_kindFlags (kind : TypeKind) : kind.flag ∈ kindFlags := by
  cases kind <;> decide

theorem isLeaf_iff_flag (kind : TypeKind) :
    kind.isLeaf = true ↔ kind.flag = "isScalar" ∨ kind.flag = "isEnum" := by
  cases kind <;> decide

end TypeKind

namespace TypeRef

variable {record : Entries Json} {type : TypeRef}

theorem listFlags_members (type : TypeRef) : ListFlags type.members :=
  .of_plain keys rfl (by decide)

/-- Only the items of a list can be null. -/
def NullsInArray (type : TypeRef) : Prop :=
  type.isNullableArray = true → type.isArray = true

/-- The record has the flags of a type among its members. -/
structure FlagsIn (type : TypeRef) (record : Entries Json) : Prop where
  kind : ∀ flag ∈ kindFlags, record.get? flag = some (.bool (flag == type.kind.flag))
  isArray : record.get? "isArray" = some (.bool type.isArray)
  isNullableArray : record.get? "isNullableArray" = some (.bool type.isNullableArray)

namespace FlagsIn

/-- The flags of a type do not depend on the members around them. -/
theorem of_members
    (h : (kindFlags ++ ["isArray", "isNullableArray"]).map record.get? =
      (kindFlags ++ ["isArray", "isNullableArray"]).map type.members.get?) :
    type.FlagsIn record := by
  have hget := List.map_inj_left.1 h
  constructor
  · have hkind : kindFlags.map type.members.get? =
        kindFlags.map fun flag => some (.bool (flag == type.kind.flag)) := by
      obtain ⟨name, raw, kind, isRequired, isArray, isNullableArray⟩ := type
      cases kind <;> rfl
    intro flag hflag
    rw [hget flag (List.mem_append_left _ hflag)]
    exact List.map_inj_left.1 hkind flag hflag
  · exact hget "isArray" (by decide)
  · exact hget "isNullableArray" (by decide)

theorem setsOne (h : type.FlagsIn record) : SetsOne record kindFlags :=
  ⟨type.kind.flag, type.kind.flag_mem_kindFlags, h.kind⟩

theorem nullable (h : type.FlagsIn record) (htype : type.NullsInArray) :
    Sets record "isNullableArray" → Sets record "isArray" := by
  rw [sets_iff h.isNullableArray, sets_iff h.isArray]
  exact htype

theorem sets_leaf_iff (h : type.FlagsIn record) :
    Sets record "isScalar" ∨ Sets record "isEnum" ↔ type.isLeaf = true := by
  rw [sets_iff (h.kind "isScalar" (by decide)), sets_iff (h.kind "isEnum" (by decide)),
    beq_iff_eq, beq_iff_eq, TypeRef.isLeaf, TypeKind.isLeaf_iff_flag, @eq_comm _ "isScalar",
    @eq_comm _ "isEnum"]

end FlagsIn

end TypeRef

namespace RecordFlags

variable {record : Entries Json}

/-- A record of no type and no operation, and no field among selections. -/
theorem of_lists (hlists : ListFlags record) (hraw : record.get? "raw" = none)
    (hnullable : record.get? "isNullableArray" = none)
    (hoperation : record.get? "operationType" = none)
    (hfield : (record.get? "isField").getD (.bool false) = .bool false) : RecordFlags record where
  lists := hlists
  kind := fun h => absurd hraw h
  nullable := fun h => absurd h (not_sets hnullable)
  operation := fun h => absurd hoperation h
  leaf := fun h => absurd hraw h
  selections := fun h => by rw [h] at hfield; cases hfield
  model := fun h => absurd hraw h

/-- A record that refers to a type, and tells nothing about selections. -/
theorem of_type {type : TypeRef} (hlists : ListFlags record) (hflags : type.FlagsIn record)
    (htype : type.NullsInArray) (hoperation : record.get? "operationType" = none)
    (hleaf : record.get? "isLeaf" = none) (hfield : record.get? "isField" = none)
    (hmodel : record.get? "modelType" = none) : RecordFlags record where
  lists := hlists
  kind := fun _ => hflags.setsOne
  nullable := hflags.nullable htype
  operation := fun h => absurd hoperation h
  leaf := fun _ h => absurd hleaf h
  selections := fun h => absurd h (not_sets hfield)
  model := fun _ h => absurd hmodel h

/-- A record of a selected field. Only one that is listed among selections has some itself, and
only one of a flattened document can name a model. -/
theorem of_field {type : TypeRef} (hlists : ListFlags record) (hflags : type.FlagsIn record)
    (htype : type.NullsInArray) (hoperation : record.get? "operationType" = none)
    (hleaf : record.get? "isLeaf" = some (.bool type.isLeaf))
    (hselections : Sets record "isField" → ∃ items,
      record.get? "selectionSet" = some (.arr items) ∧ (type.isLeaf = true ↔ items = []))
    (hmodel : record.get? "modelType" ≠ none →
      (type.isLeaf = true ↔ record.get? "modelType" = some .null)) : RecordFlags record where
  lists := hlists
  kind := fun _ => hflags.setsOne
  nullable := hflags.nullable htype
  operation := fun h => absurd hoperation h
  leaf := fun _ _ => by rw [sets_iff hleaf, hflags.sets_leaf_iff]
  selections := by rwa [sets_iff hleaf]
  model := fun _ => by rwa [sets_iff hleaf]

end RecordFlags

/-! ## All records of a value -/

namespace Json

def FlagsDerived (json : Json) : Prop :=
  ∀ record ∈ json.records, RecordFlags record

/-- The records in the values of these members. -/
def FlagsDerivedBelow (members : Entries Json) : Prop :=
  ∀ record ∈ memberRecords members, RecordFlags record

theorem flagsDerived_obj_iff (members : Entries Json) :
    (Json.obj members).FlagsDerived ↔ RecordFlags members ∧ FlagsDerivedBelow members := by
  rw [FlagsDerived, records, List.forall_mem_cons]
  rfl

@[simp] theorem flagsDerived_bool (value : Bool) : (Json.bool value).FlagsDerived :=
  List.forall_mem_nil _

@[simp] theorem flagsDerived_str (value : String) : (Json.str value).FlagsDerived :=
  List.forall_mem_nil _

@[simp] theorem flagsDerived_ofOption_str (value : Option String) :
    (ofOption .str value).FlagsDerived := by
  simp [FlagsDerived]

@[simp] theorem flagsDerived_ofList_iff {α : Type} (encode : α → Json) (values : List α) :
    (ofList encode values).FlagsDerived ↔ ∀ value ∈ values, (encode value).FlagsDerived := by
  rw [FlagsDerived, records_ofList, List.forall_mem_flatMap]
  rfl

@[simp] theorem flagsDerived_ofStrings (values : List String) : (ofStrings values).FlagsDerived :=
  (flagsDerived_ofList_iff .str values).2 fun value _ => flagsDerived_str value

@[simp] theorem flagsDerivedBelow_nil : FlagsDerivedBelow [] :=
  List.forall_mem_nil _

@[simp] theorem flagsDerivedBelow_cons (key : String) (value : Json) (rest : Entries Json) :
    FlagsDerivedBelow ((key, value) :: rest) ↔
      (key ∉ freeKeys → value.FlagsDerived) ∧ FlagsDerivedBelow rest := by
  rw [FlagsDerivedBelow, memberRecords, List.forall_mem_append]
  by_cases hkey : key ∈ freeKeys
  · simp [hkey, FlagsDerivedBelow]
  · simp [hkey, FlagsDerivedBelow, FlagsDerived]

@[simp] theorem flagsDerivedBelow_append (first second : Entries Json) :
    FlagsDerivedBelow (first ++ second) ↔
      FlagsDerivedBelow first ∧ FlagsDerivedBelow second := by
  rw [FlagsDerivedBelow, memberRecords_append, List.forall_mem_append]
  rfl

/-- Below a list with its flag are the records of the list. -/
theorem flagsDerivedBelow_pair {list flag : String} {isSet : Bool} {α : Type} {encode : α → Json}
    {values : List α} (h : ∀ value ∈ values, (encode value).FlagsDerived) :
    FlagsDerivedBelow [(list, .ofList encode values), (flag, .bool isSet)] := by
  simpa using fun _ => h

end Json

@[simp] theorem TypeRef.flagsDerivedBelow_members (type : TypeRef) :
    Json.FlagsDerivedBelow type.members :=
  List.forall_mem_nil _

@[simp] theorem AppliedDirectives.flagsDerivedBelow_members (applied : AppliedDirectives) :
    Json.FlagsDerivedBelow applied.members :=
  List.forall_mem_nil _

end GraphQLIR
