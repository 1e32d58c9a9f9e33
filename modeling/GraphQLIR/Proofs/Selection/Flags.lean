import GraphQLIR.Proofs.Record.Flags
import GraphQLIR.Proofs.Selection.Normalization
/-!
# Derived flags of selections

The JSON form of a selection set has flags for its items of each kind, and that of a field tells
whether the field is a leaf. That a leaf is a field without selections of its own holds because
other selections are refused.
-/

namespace GraphQLIR

open Json

/-! ## Lists by kind -/

namespace Indexed

variable {α : Type} (kindOf : α → ItemKind) (kind : ItemKind) (items : List α)

theorem filterMap_positionsFrom (before : List α) :
    (positionsFrom kindOf kind before.length items).filterMap
      (fun position => (before ++ items)[position]?) =
      items.filter fun item => kindOf item = kind := by
  induction items generalizing before with
  | nil => rfl
  | cons item rest ih =>
    have hrest := ih (before ++ [item])
    rw [List.append_assoc, List.singleton_append, List.length_append,
      List.length_singleton] at hrest
    by_cases hkind : kindOf item = kind
    · simp [positionsFrom, hkind, hrest]
    · simp [positionsFrom, hkind, hrest]

/-- The list of a kind has its items in the order of the whole set. -/
theorem pick_positionsFrom :
    (ofItems kindOf items).pick (positionsFrom kindOf kind 0 items) =
      items.filter fun item => kindOf item = kind :=
  filterMap_positionsFrom kindOf kind items []

theorem length_positionsFrom (start : Nat) :
    (positionsFrom kindOf kind start items).length =
      (items.filter fun item => kindOf item = kind).length := by
  induction items generalizing start with
  | nil => rfl
  | cons item rest ih =>
    by_cases hkind : kindOf item = kind
    · simp [positionsFrom, hkind, ih]
    · simp [positionsFrom, hkind, ih]

/-- There are positions of a kind just if there are items of it. -/
theorem isEmpty_positionsFrom :
    (positionsFrom kindOf kind 0 items).isEmpty =
      ((ofItems kindOf items).pick (positionsFrom kindOf kind 0 items)).isEmpty := by
  rw [Bool.eq_iff_iff, List.isEmpty_iff_length_eq_zero, List.isEmpty_iff_length_eq_zero,
    pick_positionsFrom, length_positionsFrom]

theorem hasFields_ofItems :
    (ofItems kindOf items).hasFields = !(ofItems kindOf items).fields.isEmpty :=
  congrArg not (isEmpty_positionsFrom kindOf .field items)

theorem hasSpreads_ofItems :
    (ofItems kindOf items).hasSpreads = !(ofItems kindOf items).spreads.isEmpty :=
  congrArg not (isEmpty_positionsFrom kindOf .spread items)

theorem hasInlines_ofItems :
    (ofItems kindOf items).hasInlines = !(ofItems kindOf items).inlines.isEmpty :=
  congrArg not (isEmpty_positionsFrom kindOf .inline items)

end Indexed

/-- Items listed by kind, which are whole selections or refer to models. -/
theorem listFlags_kindMembers {φ σ ι : Type} {fieldJson : φ → Json} {spreadJson : σ → Json}
    {inlineJson : ι → Json} {fields : List φ} {spreads : List σ} {inlines : List ι}
    {hasFields hasSpreads hasInlines : Bool} (hfields : hasFields = !fields.isEmpty)
    (hspreads : hasSpreads = !spreads.isEmpty) (hinlines : hasInlines = !inlines.isEmpty) :
    ListFlags (kindMembers (.ofList fieldJson fields) (.ofList spreadJson spreads)
      (.ofList inlineJson inlines) hasFields hasSpreads hasInlines) := by
  rw [hfields, hspreads, hinlines, ← hasItems_ofList fieldJson, ← hasItems_ofList spreadJson,
    ← hasItems_ofList inlineJson]
  exact .of_keys kindKeys rfl (by decide) rfl

namespace Selections

theorem listFlags_itemMembers (items : List (ItemKind × Json)) :
    ListFlags (itemMembers items) := by
  refine .cons (by decide) (listFlags_kindMembers ?_ ?_ ?_)
  · exact Indexed.hasFields_ofItems Prod.fst items
  · exact Indexed.hasSpreads_ofItems Prod.fst items
  · exact Indexed.hasInlines_ofItems Prod.fst items

/-- Below the lists of a set are the records of its items, whichever list they are found in. -/
theorem forall_memberRecords_itemMembers {P : Entries Json → Prop} {items : List (ItemKind × Json)}
    (h : ∀ item ∈ items, ∀ record ∈ item.2.records, P record) :
    ∀ record ∈ memberRecords (itemMembers items), P record := by
  intro record hrecord
  have hpick (kind : ItemKind) (hmem : record ∈ (ofList Prod.snd ((Indexed.ofItems Prod.fst
      items).pick (Indexed.positionsFrom Prod.fst kind 0 items))).records) : P record := by
    rw [Indexed.pick_positionsFrom, records_ofList, List.mem_flatMap] at hmem
    obtain ⟨item, hitem, hmem⟩ := hmem
    exact h item (List.mem_of_mem_filter hitem) record hmem
  have hlists : record ∈ (ofList Prod.snd (Indexed.ofItems Prod.fst items).items).records ∨
      record ∈ (ofList Prod.snd (Indexed.ofItems Prod.fst items).fields).records ∨
      record ∈ (ofList Prod.snd (Indexed.ofItems Prod.fst items).spreads).records ∨
      record ∈ (ofList Prod.snd (Indexed.ofItems Prod.fst items).inlines).records := by
    simpa [itemMembers, kindMembers, memberRecords, records, freeKeys] using hrecord
  rcases hlists with hall | hfields | hspreads | hinlines
  · rw [records_ofList, List.mem_flatMap] at hall
    obtain ⟨item, hitem, hmem⟩ := hall
    exact h item hitem record hmem
  · exact hpick .field hfields
  · exact hpick .spread hspreads
  · exact hpick .inline hinlines

theorem flagsDerivedBelow_itemMembers {items : List (ItemKind × Json)}
    (h : ∀ item ∈ items, item.2.FlagsDerived) : FlagsDerivedBelow (itemMembers items) :=
  forall_memberRecords_itemMembers h

/-! ## Items -/

theorem listFlags_tagMembers (kind : ItemKind) (isLeaf : Bool) :
    ListFlags (tagMembers kind isLeaf) :=
  .of_plain tagKeys rfl (by decide)

theorem encodedItems_eq_nil_iff (selections : Selections) :
    selections.encodedItems = [] ↔ selections.isEmpty = true := by
  cases selections <;> simp [encodedItems, SelectionSet.isEmpty]

end Selections

/-- The only records below a field are those of its selections. -/
theorem FieldNode.memberRecords_members (node : FieldNode) (below : Entries Json) :
    memberRecords (node.members below) = memberRecords below := by
  have htype : memberRecords node.type.members = [] := rfl
  have hdirectives : memberRecords node.directives.members = [] := rfl
  simp [members, Selections.tagMembers, memberRecords, records, htype, hdirectives]

@[inherit_doc FieldNode.memberRecords_members]
theorem InlineNode.memberRecords_members (node : InlineNode) (below : Entries Json) :
    memberRecords (node.members below) = memberRecords below := by
  have hdirectives : memberRecords node.directives.members = [] := rfl
  simp [members, Selections.tagMembers, memberRecords, records, hdirectives]

/-- The field is a leaf just if nothing is selected below it, and its type and its directives have
flags that go together. -/
structure FieldNode.Flagged (node : FieldNode) (below : Selections) : Prop where
  leaf : node.isLeaf = below.isEmpty
  type : node.type.NullsInArray
  directives : node.directives.Flagged

theorem FieldNode.Flagged.recordFlags {node : FieldNode} {below : Selections}
    (h : node.Flagged below) :
    RecordFlags (node.members (Selections.itemMembers below.encodedItems)) := by
  have hselections : node.isLeaf = true ↔ below.encodedItems.map Prod.snd = [] := by
    rw [h.leaf, ← Selections.encodedItems_eq_nil_iff, List.map_eq_nil_iff]
  refine .of_field (.append (.append (.append (.append ?_ ?_) ?_) ?_) ?_) (.of_members rfl) h.type
    rfl rfl (fun _ => ⟨_, rfl, hselections⟩) fun hmodel => absurd rfl hmodel
  · exact Selections.listFlags_tagMembers .field node.isLeaf
  · exact .cons (by decide) (.single (by decide))
  · exact node.type.listFlags_members
  · exact Selections.listFlags_itemMembers below.encodedItems
  · exact h.directives.listFlags_members

theorem SpreadNode.listFlags_members {node : SpreadNode} (h : node.directives.Flagged) :
    ListFlags node.members :=
  .cons (by decide) h.listFlags_members

@[simp] theorem SpreadNode.flagsDerivedBelow_members (node : SpreadNode) :
    FlagsDerivedBelow node.members := by
  simp [members]

theorem InlineNode.listFlags_members {node : InlineNode} (h : node.directives.Flagged)
    {below : Entries Json} (hbelow : ListFlags below) : ListFlags (node.members below) := by
  refine .append (.append (.append ?_ ?_) hbelow) h.listFlags_members
  · exact Selections.listFlags_tagMembers .inline false
  · exact .single (by decide)

/-- The flags of an item that its node stores, or that are made from more than one of its parts. -/
def Selection.Flagged : Selection → Prop
  | .field node below => node.Flagged below
  | .spread node => node.directives.Flagged
  | .inline node _ => node.directives.Flagged

namespace Selections

/-- The flags that go together in the items, at every depth. -/
def Flagged (selections : Selections) : Prop :=
  ∀ item ∈ selections.preorder, Selection.Flagged item

namespace Flagged

theorem empty : Flagged .empty :=
  List.forall_mem_nil _

theorem field_iff {node : FieldNode} {below rest : Selections} :
    Flagged (.field node below rest) ↔ node.Flagged below ∧ below.Flagged ∧ rest.Flagged := by
  rw [Flagged, SelectionSet.preorder, List.forall_mem_cons, List.forall_mem_append]
  rfl

theorem spread_iff {node : SpreadNode} {rest : Selections} :
    Flagged (.spread node rest) ↔ node.directives.Flagged ∧ rest.Flagged := by
  rw [Flagged, SelectionSet.preorder, List.forall_mem_cons]
  rfl

theorem inline_iff {node : InlineNode} {below rest : Selections} :
    Flagged (.inline node below rest) ↔
      node.directives.Flagged ∧ below.Flagged ∧ rest.Flagged := by
  rw [Flagged, SelectionSet.preorder, List.forall_mem_cons, List.forall_mem_append]
  rfl

theorem flagsDerived_encodedItems {selections : Selections} (h : selections.Flagged) :
    ∀ item ∈ selections.encodedItems, item.2.FlagsDerived := by
  induction selections with
  | empty => exact List.forall_mem_nil _
  | field node below rest ihbelow ihrest =>
    obtain ⟨hnode, hbelow, hrest⟩ := field_iff.1 h
    refine List.forall_mem_cons.2 ⟨?_, ihrest hrest⟩
    rw [flagsDerived_obj_iff]
    refine ⟨hnode.recordFlags, ?_⟩
    rw [FlagsDerivedBelow, FieldNode.memberRecords_members]
    exact flagsDerivedBelow_itemMembers (ihbelow hbelow)
  | spread node rest ih =>
    obtain ⟨hnode, hrest⟩ := spread_iff.1 h
    refine List.forall_mem_cons.2 ⟨?_, ih hrest⟩
    rw [flagsDerived_obj_iff]
    constructor
    · have htags := listFlags_tagMembers .spread false
      exact .of_lists (htags.append (SpreadNode.listFlags_members hnode)) rfl rfl rfl rfl
    · simp [tagMembers]
  | inline node below rest ihbelow ihrest =>
    obtain ⟨hnode, hbelow, hrest⟩ := inline_iff.1 h
    refine List.forall_mem_cons.2 ⟨?_, ihrest hrest⟩
    rw [flagsDerived_obj_iff]
    constructor
    · have hitems := listFlags_itemMembers (encodedItems below)
      exact .of_lists (InlineNode.listFlags_members hnode hitems) rfl rfl rfl rfl
    · rw [FlagsDerivedBelow, InlineNode.memberRecords_members]
      exact flagsDerivedBelow_itemMembers (ihbelow hbelow)

theorem flagsDerivedBelow_members {selections : Selections} (h : selections.Flagged) :
    FlagsDerivedBelow selections.members :=
  flagsDerivedBelow_itemMembers h.flagsDerived_encodedItems

end Flagged

end Selections

/-! ## Accepted selections -/

namespace WrittenSelections

variable [NumberReader] {catalog : Catalog} {parent : String} {written : WrittenSelections} {normal : Selections}

theorem isEmpty_of_normalize_eq_ok (h : written.normalize catalog parent = .ok normal) :
    normal.isEmpty = written.isEmpty := by
  cases written with
  | empty =>
    cases h
    rfl
  | field field selections rest =>
    obtain ⟨_, _, _, -, -, -, -, rfl⟩ := normalize_field_eq_ok h
    rfl
  | spread spread rest =>
    obtain ⟨_, -, rfl⟩ := normalize_spread_eq_ok h
    rfl
  | inline inline selections rest =>
    obtain ⟨_, _, -, -, rfl⟩ := normalize_inline_eq_ok h
    rfl

theorem flagged_of_normalize_eq_ok (h : written.normalize catalog parent = .ok normal) :
    normal.Flagged := by
  induction written generalizing parent normal with
  | empty =>
    cases h
    exact .empty
  | field field selections rest ihbelow ihrest =>
    obtain ⟨type, below, later, htype, hleaf, hbelow, hlater, rfl⟩ := normalize_field_eq_ok h
    rw [Selections.Flagged.field_iff]
    refine ⟨?_, ihbelow hbelow, ihrest hlater⟩
    exact {
      leaf := hleaf.trans (isEmpty_of_normalize_eq_ok hbelow).symm
      type := Catalog.Classifies.nullsInArray ⟨_, htype⟩
      directives := AppliedDirectives.flagged_ofApplications field.directives
    }
  | spread spread rest ih =>
    obtain ⟨later, hlater, rfl⟩ := normalize_spread_eq_ok h
    exact Selections.Flagged.spread_iff.2
      ⟨AppliedDirectives.flagged_ofApplications spread.directives, ih hlater⟩
  | inline inline selections rest ihbelow ihrest =>
    obtain ⟨below, later, hbelow, hlater, rfl⟩ := normalize_inline_eq_ok h
    exact Selections.Flagged.inline_iff.2
      ⟨AppliedDirectives.flagged_ofApplications inline.directives, ihbelow hbelow, ihrest hlater⟩

end WrittenSelections

end GraphQLIR
