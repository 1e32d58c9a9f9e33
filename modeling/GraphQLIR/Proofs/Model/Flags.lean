import GraphQLIR.Proofs.Document.Flags
import GraphQLIR.Proofs.Model.Forest
import GraphQLIR.Proofs.Schema.Flags
import GraphQLIR.Proofs.Selection.Faults
/-!
# Derived flags of flattened documents

Flattening copies some flags, and sets those of a level of selections after all its items are there.
They are right as well, and so are all flags of everything that a schema and its documents are made
into.
-/

namespace GraphQLIR

open Json

/-! ## One level -/

/-- The flags that go together in a field. Just the leaves have no model. -/
structure ModelField.Flagged (field : ModelField) : Prop where
  type : field.type.NullsInArray
  isLeaf_eq : field.isLeaf = field.type.isLeaf
  named : field.modelName = none ↔ field.type.isLeaf = true
  directives : field.directives.Flagged

theorem ModelField.Flagged.flagsDerived {field : ModelField} (h : field.Flagged) :
    field.toJson.FlagsDerived := by
  rw [toJson, h.isLeaf_eq, flagsDerived_obj_iff]
  constructor
  · have hleaf : field.type.isLeaf = true ↔
        some (ofOption .str field.modelName) = some Json.null := by
      rw [← h.named]
      cases field.modelName <;> simp [ofOption]
    refine .of_field (.append (.append (.append ?_ ?_) ?_) ?_) (.of_members rfl) h.type rfl rfl
      (fun hfield => absurd hfield (not_sets rfl)) fun _ => hleaf
    · exact .cons (by decide) (.single (by decide))
    · exact field.type.listFlags_members
    · exact .cons (by decide) (.single (by decide))
    · exact h.directives.listFlags_members
  · simp

theorem ModelInline.flagsDerived {inline : ModelInline} (h : inline.directives.Flagged) :
    inline.toJson.FlagsDerived := by
  rw [toJson, flagsDerived_obj_iff]
  constructor
  · refine .of_lists (.append ?_ h.listFlags_members) rfl rfl rfl rfl
    exact .cons (by decide) (.single (by decide))
  · simp

namespace ModelLevel

/-- The flags that go together in each item of a level. -/
structure ItemsFlagged (level : ModelLevel) : Prop where
  fields : ∀ field ∈ level.fields, field.Flagged
  spreads : ∀ spread ∈ level.spreads, spread.directives.Flagged
  inlines : ∀ inline ∈ level.inlines, inline.directives.Flagged

/-- The flags that go together in a level and in its items. -/
structure Flagged (level : ModelLevel) : Prop extends ItemsFlagged level where
  hasFields_eq : level.hasFields = !level.fields.isEmpty
  hasSpreads_eq : level.hasSpreads = !level.spreads.isEmpty
  hasInlines_eq : level.hasInlines = !level.inlines.isEmpty

namespace ItemsFlagged

variable {level : ModelLevel}

theorem empty : ModelLevel.empty.ItemsFlagged :=
  ⟨List.forall_mem_nil _, List.forall_mem_nil _, List.forall_mem_nil _⟩

theorem addField (h : level.ItemsFlagged) {field : ModelField} (hfield : field.Flagged) :
    (level.addField field).ItemsFlagged :=
  ⟨List.forall_mem_cons.2 ⟨hfield, h.fields⟩, h.spreads, h.inlines⟩

theorem addSpread (h : level.ItemsFlagged) {spread : SpreadNode}
    (hspread : spread.directives.Flagged) : (level.addSpread spread).ItemsFlagged :=
  ⟨h.fields, List.forall_mem_cons.2 ⟨hspread, h.spreads⟩, h.inlines⟩

theorem addInline (h : level.ItemsFlagged) {inline : ModelInline}
    (hinline : inline.directives.Flagged) : (level.addInline inline).ItemsFlagged :=
  ⟨h.fields, h.spreads, List.forall_mem_cons.2 ⟨hinline, h.inlines⟩⟩

theorem setFlags (h : level.ItemsFlagged) : level.setFlags.Flagged :=
  ⟨⟨h.fields, h.spreads, h.inlines⟩, rfl, rfl, rfl⟩

end ItemsFlagged

namespace Flagged

variable {level : ModelLevel}

theorem listFlags_members (h : level.Flagged) : ListFlags level.members :=
  listFlags_kindMembers h.hasFields_eq h.hasSpreads_eq h.hasInlines_eq

theorem flagsDerivedBelow_members (h : level.Flagged) : FlagsDerivedBelow level.members := by
  have hfields : ∀ field ∈ level.fields, field.toJson.FlagsDerived :=
    fun field hfield => (h.fields field hfield).flagsDerived
  have hspreads : ∀ spread ∈ level.spreads, (Json.obj spread.members).FlagsDerived := by
    intro spread hspread
    have hlists := SpreadNode.listFlags_members (h.spreads spread hspread)
    rw [flagsDerived_obj_iff]
    exact ⟨.of_lists hlists rfl rfl rfl rfl, spread.flagsDerivedBelow_members⟩
  have hinlines : ∀ inline ∈ level.inlines, inline.toJson.FlagsDerived :=
    fun inline hinline => ModelInline.flagsDerived (h.inlines inline hinline)
  simpa [members, kindMembers, freeKeys] using ⟨hfields, hspreads, hinlines⟩

end Flagged

end ModelLevel

theorem Model.flagsDerived {model : Model} (h : model.level.Flagged) :
    model.toJson.FlagsDerived := by
  rw [toJson, flagsDerived_obj_iff]
  constructor
  · refine .of_lists (.append ?_ h.listFlags_members) rfl rfl rfl rfl
    exact .cons (by decide) (.single (by decide))
  · simp [h.flagsDerivedBelow_members]

/-! ## All levels -/

namespace FieldNode.Flagged

variable {node : FieldNode} {below : Selections}

theorem leafField (h : node.Flagged below) (hleaf : node.isLeaf = true) :
    (node.toModelField none).Flagged :=
  ⟨h.type, rfl, iff_of_true rfl hleaf, h.directives⟩

theorem namedField (h : node.Flagged below) (hleaf : ¬ node.isLeaf = true) (name : String) :
    (node.toModelField (some name)).Flagged :=
  ⟨h.type, rfl, iff_of_false (Option.some_ne_none name) hleaf, h.directives⟩

end FieldNode.Flagged

namespace Selections

/-- Collecting keeps the flags of items, and sets those of the levels below the top. -/
theorem flagged_collect (used : List String) {selections : Selections} (h : selections.Flagged) :
    (selections.collect used).1.ItemsFlagged ∧
      ∀ model ∈ (selections.collect used).2, model.level.Flagged := by
  fun_induction collect used selections with
  | case1 used => exact ⟨.empty, List.forall_mem_nil _⟩
  | case2 used node selections rest hleaf later ih =>
    obtain ⟨hnode, -, hrest⟩ := Flagged.field_iff.1 h
    obtain ⟨hlevel, hmodels⟩ := ih hrest
    exact ⟨hlevel.addField (hnode.leafField hleaf), hmodels⟩
  | case3 used node selections rest hleaf taken below models later ihbelow ihlater =>
    obtain ⟨hnode, hbelow, hrest⟩ := Flagged.field_iff.1 h
    obtain ⟨hinner, hmodels⟩ := ihbelow hbelow
    obtain ⟨hlevel, hmore⟩ := ihlater hrest
    refine ⟨hlevel.addField (hnode.namedField hleaf taken.1),
      List.forall_mem_append.2 ⟨?_, hmore⟩⟩
    exact List.forall_mem_cons.2 ⟨hinner.setFlags, hmodels⟩
  | case4 used node rest later ih =>
    obtain ⟨hnode, hrest⟩ := Flagged.spread_iff.1 h
    obtain ⟨hlevel, hmodels⟩ := ih hrest
    exact ⟨hlevel.addSpread hnode, hmodels⟩
  | case5 used node selections rest taken below models later ihbelow ihlater =>
    obtain ⟨hnode, hbelow, hrest⟩ := Flagged.inline_iff.1 h
    obtain ⟨hinner, hmodels⟩ := ihbelow hbelow
    obtain ⟨hlevel, hmore⟩ := ihlater hrest
    refine ⟨hlevel.addInline hnode, List.forall_mem_append.2 ⟨?_, hmore⟩⟩
    exact List.forall_mem_cons.2 ⟨hinner.setFlags, hmodels⟩

theorem flagged_flatten {selections : Selections} (h : selections.Flagged) :
    selections.flatten.1.Flagged ∧ ∀ model ∈ selections.flatten.2, model.level.Flagged := by
  obtain ⟨hlevel, hmodels⟩ := flagged_collect [] h
  exact ⟨hlevel.setFlags, hmodels⟩

end Selections

/-! ## Flattened documents -/

theorem listFlags_modelMembers {models : List Model} {hasModels : Bool}
    (h : hasModels = !models.isEmpty) : ListFlags (modelMembers models hasModels) :=
  .ofList (by decide) h

theorem flagsDerivedBelow_modelMembers {models : List Model} {hasModels : Bool}
    (h : ∀ model ∈ models, model.level.Flagged) :
    FlagsDerivedBelow (modelMembers models hasModels) :=
  flagsDerivedBelow_pair fun model hmodel => Model.flagsDerived (h model hmodel)

/-- The flags that go together in a flattened fragment, at every level. -/
structure FlatFragment.Flagged (fragment : FlatFragment) : Prop where
  level : fragment.level.Flagged
  models : ∀ model ∈ fragment.models, model.level.Flagged
  hasModels_eq : fragment.hasModels = !fragment.models.isEmpty
  directives : fragment.directives.Flagged

/-- The flags that go together in a flattened operation, at every level. -/
structure FlatOperation.Flagged (operation : FlatOperation) : Prop where
  vars : ∀ v ∈ operation.vars, v.type.NullsInArray
  hasVars_eq : operation.hasVars = !operation.vars.isEmpty
  level : operation.level.Flagged
  models : ∀ model ∈ operation.models, model.level.Flagged
  hasModels_eq : operation.hasModels = !operation.models.isEmpty
  directives : operation.directives.Flagged

/-- The flags that go together in a flattened document, at every level. -/
structure FlatDocument.Flagged (document : FlatDocument) : Prop where
  fragments : ∀ fragment ∈ document.fragments, fragment.Flagged
  operations : ∀ operation ∈ document.operations, operation.Flagged
  hasFragments_eq : document.hasFragments = !document.fragments.isEmpty
  hasOperations_eq : document.hasOperations = !document.operations.isEmpty

theorem Fragment.Flagged.flatten {fragment : Fragment} (h : fragment.Flagged) :
    fragment.flatten.Flagged := by
  obtain ⟨hlevel, hmodels⟩ := Selections.flagged_flatten h.selections
  exact ⟨hlevel, hmodels, rfl, h.directives⟩

/-- The flag of the variables is right because the variables are copied together with it. -/
theorem Operation.Flagged.flatten {operation : Operation} (h : operation.Flagged) :
    operation.flatten.Flagged := by
  obtain ⟨hlevel, hmodels⟩ := Selections.flagged_flatten h.selections
  exact ⟨h.vars, h.hasVars_eq, hlevel, hmodels, rfl, h.directives⟩

theorem Document.Flagged.flatten {document : Document} (h : document.Flagged) :
    document.flatten.Flagged where
  fragments := List.forall_mem_map.2 fun fragment hfragment =>
    (h.fragments fragment hfragment).flatten
  operations := List.forall_mem_map.2 fun operation hoperation =>
    (h.operations operation hoperation).flatten
  hasFragments_eq := rfl
  hasOperations_eq := rfl

theorem FlatFragment.Flagged.flagsDerived {fragment : FlatFragment} (h : fragment.Flagged) :
    fragment.toJson.FlagsDerived := by
  rw [toJson, flagsDerived_obj_iff]
  constructor
  · refine .of_lists (.append (.append (.append ?_ ?_) ?_) ?_) rfl rfl rfl rfl
    · exact .cons (by decide) (.cons (by decide) (.single (by decide)))
    · exact h.level.listFlags_members
    · exact listFlags_modelMembers h.hasModels_eq
    · exact h.directives.listFlags_members
  · simp [h.level.flagsDerivedBelow_members, flagsDerivedBelow_modelMembers h.models]

theorem FlatOperation.Flagged.flagsDerived {operation : FlatOperation} (h : operation.Flagged) :
    operation.toJson.FlagsDerived := by
  rw [toJson, flagsDerived_obj_iff]
  constructor
  · refine .of_operation
      (.append (.append (.append (.append (.append (.append ?_ ?_) ?_) ?_) ?_) ?_) ?_) rfl rfl rfl rfl
    · exact .single (by decide)
    · exact operation.operationType.listFlags_members
    · exact listFlags_variableMembers h.hasVars_eq
    · exact .single (by decide)
    · exact h.level.listFlags_members
    · exact listFlags_modelMembers h.hasModels_eq
    · exact h.directives.listFlags_members
  · simp [flagsDerivedBelow_variableMembers h.vars, h.level.flagsDerivedBelow_members,
      flagsDerivedBelow_modelMembers h.models]

theorem FlatDocument.Flagged.flagsDerived {document : FlatDocument} (h : document.Flagged) :
    document.toJson.FlagsDerived :=
  flagsDerived_document (fun fragment hfragment => (h.fragments fragment hfragment).flagsDerived)
    (fun operation hoperation => (h.operations operation hoperation).flagsDerived)
    h.hasFragments_eq h.hasOperations_eq

/-! ## All outputs -/

/-- The items of all selections in a document, at every depth. -/
def Document.selectionItems (document : Document) : List Selection :=
  (document.fragments.flatMap fun fragment => fragment.selections.preorder) ++
    document.operations.flatMap fun operation => operation.selections.preorder

theorem Document.Flagged.of_mem_selectionItems {document : Document} (h : document.Flagged) :
    ∀ item ∈ document.selectionItems, Selection.Flagged item := by
  intro item hitem
  rcases List.mem_append.1 hitem with hin | hin
  · obtain ⟨fragment, hfragment, hitem⟩ := List.mem_flatMap.1 hin
    exact (h.fragments fragment hfragment).selections item hitem
  · obtain ⟨operation, hoperation, hitem⟩ := List.mem_flatMap.1 hin
    exact (h.operations operation hoperation).selections item hitem

/-- All flags are right in a normalized schema, in a document and in the flattened document, as they
are stored and in the JSON form. Every type and operation in them has its flags, and a field is a
leaf just if its type is one and just if nothing is selected below it. -/
structure RightFlags (records : SchemaRecords) (document : Document) : Prop where
  types : ∀ type ∈ records.typeRefs ++ document.typeRefs, SetsOne type.members kindFlags ∧
    (Sets type.members "isNullableArray" → Sets type.members "isArray")
  operations : ∀ operation ∈ document.operations,
    SetsOne operation.operationType.members operationFlags
  storedInSchema : records.Flagged
  storedInDocument : document.Flagged
  storedInFlattened : document.flatten.Flagged
  ofSchema : ∀ record ∈ records.toJson.records, RecordFlags record
  ofDocument : ∀ record ∈ document.toJson.records, RecordFlags record
  ofFlattened : ∀ record ∈ document.flatten.toJson.records, RecordFlags record
  leaves : ∀ node below, SelectionItem.field node below ∈ document.selectionItems →
    (node.isLeaf = true ↔ node.type.kind = .scalar ∨ node.type.kind = .enum) ∧
      (node.isLeaf = true ↔ below = .empty)

namespace Schema

section

variable [NumberReader] {schema : Schema} {records : SchemaRecords}

/-- Whatever a schema and documents are normalized to has flags that agree with the rest of it. -/
theorem rightFlags {documents : List ExecutableDocument} {document : Document}
    (hschema : schema.normalize = .ok records)
    (hdocument : Document.ofDocuments schema.catalog documents = .ok document) :
    RightFlags records document := by
  have hrecords : records.Flagged := flagged_of_normalize_eq_ok hschema
  have hflagged : document.Flagged := Document.flagged_of_ofDocuments_eq_ok hdocument
  constructor
  case types =>
    intro type htype
    have hclassifies : schema.catalog.Classifies type :=
      (List.mem_append.1 htype).elim (classifies_of_mem_typeRefs hschema)
        (Document.classifies_of_mem_typeRefs hdocument)
    have hflags : type.FlagsIn type.members := .of_members rfl
    exact ⟨hflags.setsOne, hflags.nullable hclassifies.nullsInArray⟩
  case operations => exact fun operation _ => OperationType.setsOne rfl
  case storedInSchema => exact hrecords
  case storedInDocument => exact hflagged
  case storedInFlattened => exact hflagged.flatten
  case ofSchema => exact hrecords.flagsDerived
  case ofDocument => exact hflagged.flagsDerived
  case ofFlattened => exact hflagged.flatten.flagsDerived
  case leaves =>
    intro node below hitem
    have hfield : node.Flagged below := hflagged.of_mem_selectionItems _ hitem
    refine ⟨node.type.kind.isLeaf_iff, ?_⟩
    rw [hfield.leaf, SelectionSet.isEmpty_eq_true_iff]

end

section

open NumberReader.Nearest

theorem rightFlags_postSchema :
    ∃ records document, postSchema.normalize = .ok records ∧
      Document.ofDocuments postSchema.catalog [postQuery] = .ok document ∧
      records.toJson.records.filterMap (Entries.get? · "hasArguments") =
        [.bool true, .bool false, .bool true] ∧
      document.selectionItems.map Selection.isLeaf = [false, false, true] ∧
      document.flatten.toJson.records.filterMap (Entries.get? · "isLeaf") =
        [.bool false, .bool false, .bool true] ∧
      RightFlags records document :=
  ⟨_, _, rfl, rfl, rfl, rfl, rfl, @rightFlags _ postSchema _ [postQuery] _ rfl rfl⟩

end

end Schema

end GraphQLIR
