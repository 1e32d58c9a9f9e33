import GraphQLIR.Proofs.Selection.Equality
import GraphQLIR.Proofs.Selection.Flags
/-!
# Projections of selections

The positions by kind share out the positions of all items: each position is in one of the three
lists, and each list is in order. What is read at them, in memory or in the JSON form, is therefore
the items of one kind and nothing else.
-/

namespace GraphQLIR

open Json

/-! ## Positions -/

namespace Indexed

variable {α : Type} (kindOf : α → ItemKind) (kind : ItemKind) (items : List α)

theorem positionsFrom_eq_map_filter_zipIdx (start : Nat) :
    positionsFrom kindOf kind start items =
      ((items.zipIdx start).filter fun entry => kindOf entry.1 = kind).map Prod.snd := by
  induction items generalizing start with
  | nil => rfl
  | cons item rest ih =>
    by_cases hkind : kindOf item = kind
    · simp [positionsFrom, hkind, ih]
    · simp [positionsFrom, hkind, ih]

theorem positionsFrom_sublist_range :
    (positionsFrom kindOf kind 0 items).Sublist (List.range items.length) := by
  rw [positionsFrom_eq_map_filter_zipIdx, List.range_eq_range', ← List.zipIdx_map_snd 0 items]
  exact List.filter_sublist.map Prod.snd

theorem mem_positionsFrom_iff (position : Nat) :
    position ∈ positionsFrom kindOf kind 0 items ↔
      ∃ item, items[position]? = some item ∧ kindOf item = kind := by
  simp [positionsFrom_eq_map_filter_zipIdx, List.mem_zipIdx_iff_getElem?]

theorem length_eq_add_positionsFrom :
    items.length = (positionsFrom kindOf .field 0 items).length +
      (positionsFrom kindOf .spread 0 items).length +
      (positionsFrom kindOf .inline 0 items).length := by
  simp only [length_positionsFrom]
  induction items with
  | nil => rfl
  | cons item rest ih =>
    cases hkind : kindOf item <;> simp [hkind, ih] <;> omega

theorem map_filter_eq_map_some {β : Type} {part? : α → Option β}
    (hpart : ∀ item, kindOf item = kind ↔ (part? item).isSome = true) :
    (items.filter fun item => kindOf item = kind).map part? = (items.filterMap part?).map some := by
  induction items with
  | nil => rfl
  | cons item rest ih =>
    cases hitem : part? item with
    | none =>
      have hkind : kindOf item ≠ kind := by simp [hpart, hitem]
      simp [hkind, hitem, ih]
    | some part =>
      have hkind : kindOf item = kind := by simp [hpart, hitem]
      simp [hkind, hitem, ih]

/-- Every position is that of an item with the part, and the parts of all items are read. -/
theorem map_getElem?_positionsFrom {β : Type} {part? : α → Option β}
    (hpart : ∀ item, kindOf item = kind ↔ (part? item).isSome = true) :
    ((positionsFrom kindOf kind 0 items).map fun position => items[position]?.bind part?) =
      (items.filterMap part?).map some := by
  calc
    _ = (items.zipIdx.filter fun entry => kindOf entry.1 = kind).map
        fun entry => part? entry.1 := by
      rw [positionsFrom_eq_map_filter_zipIdx, List.map_map]
      apply List.map_congr_left
      intro entry hentry
      have hitem : items[entry.2]? = some entry.1 :=
        List.mem_zipIdx_iff_getElem?.1 (List.mem_of_mem_filter hentry)
      simp [hitem]
    _ = ((items.zipIdx.map Prod.fst).filter fun item => kindOf item = kind).map part? := by
      rw [List.filter_map, List.map_map]
      rfl
    _ = _ := by rw [List.zipIdx_map_fst, map_filter_eq_map_some kindOf kind items hpart]

def positions (indexed : Indexed α) : ItemKind → List Nat
  | .field => indexed.fieldPositions
  | .spread => indexed.spreadPositions
  | .inline => indexed.inlinePositions

theorem positions_ofItems :
    (ofItems kindOf items).positions kind = positionsFrom kindOf kind 0 items := by
  cases kind <;> rfl

/-- The lists of positions are in order and together have every position once. -/
structure SharesOut (indexed : Indexed α) : Prop where
  increasing : ∀ kind, (indexed.positions kind).Pairwise (· < ·)
  inBounds : ∀ kind, ∀ position ∈ indexed.positions kind, position < indexed.items.length
  disjoint : ∀ kind other, kind ≠ other →
    (indexed.positions kind).Disjoint (indexed.positions other)
  covers : ∀ position < indexed.items.length, ∃ kind, position ∈ indexed.positions kind
  length_eq : indexed.items.length = (indexed.positions .field).length +
    (indexed.positions .spread).length + (indexed.positions .inline).length

theorem sharesOut_ofItems : (ofItems kindOf items).SharesOut where
  increasing kind := by
    rw [positions_ofItems]
    exact List.pairwise_lt_range.sublist (positionsFrom_sublist_range kindOf kind items)
  inBounds kind position hposition := by
    rw [positions_ofItems] at hposition
    exact List.mem_range.1 ((positionsFrom_sublist_range kindOf kind items).subset hposition)
  disjoint kind other hne position hposition hother := by
    rw [positions_ofItems, mem_positionsFrom_iff] at hposition hother
    obtain ⟨item, hitem, hkind⟩ := hposition
    obtain ⟨same, hsame, hsameKind⟩ := hother
    rw [hitem, Option.some.injEq] at hsame
    rw [← hkind, ← hsameKind, hsame] at hne
    exact hne rfl
  covers position hlt := by
    refine ⟨kindOf items[position], ?_⟩
    rw [positions_ofItems, mem_positionsFrom_iff]
    exact ⟨items[position], List.getElem?_eq_getElem hlt, rfl⟩
  length_eq := length_eq_add_positionsFrom kindOf items

end Indexed

/-! ## Lists by flag -/

namespace ItemKind

/-- The flag that items of this kind have set. -/
def flag : ItemKind → String
  | .field => "isField"
  | .spread => "isFragmentSpread"
  | .inline => "isInlineFragment"

/-- The list of the items of this kind. -/
def listName : ItemKind → String
  | .field => "fields"
  | .spread => "fragmentsSpread"
  | .inline => "inlineFragments"

end ItemKind

/-- Whether the form has this flag and it is set. -/
def Json.isFlagged (flag : String) (json : Json) : Bool :=
  match json.member? flag with
  | some (.bool value) => value
  | _ => false

/-- The lists by kind are the list of all items, filtered by the flags of the kinds. -/
def ListsByFlag (record : Entries Json) : Prop :=
  ∃ items, record.get? "selectionSet" = some (.arr items) ∧
    ∀ kind : ItemKind, record.get? kind.listName = some (.arr (items.filter (isFlagged kind.flag)))

namespace Selections

theorem isFlagged_of_tagged {item : ItemKind × Json} (h : Tagged item) (kind : ItemKind) :
    item.2.isFlagged kind.flag = decide (item.1 = kind) := by
  obtain ⟨isLeaf, rest, hform⟩ := h
  rw [hform]
  cases item.1 <;> cases kind <;> rfl

theorem listsByFlag_itemMembers {items : List (ItemKind × Json)} (h : ∀ item ∈ items, Tagged item) :
    ListsByFlag (itemMembers items) := by
  have hfilter (kind : ItemKind) : ofList Prod.snd ((Indexed.ofItems Prod.fst items).pick
      (Indexed.positionsFrom Prod.fst kind 0 items)) =
      .arr ((items.map Prod.snd).filter (isFlagged kind.flag)) := by
    rw [Indexed.pick_positionsFrom, ofList, List.filter_map]
    congr 2
    exact List.filter_congr fun item hitem => (isFlagged_of_tagged (h item hitem) kind).symm
  refine ⟨items.map Prod.snd, rfl, fun kind => ?_⟩
  rw [← hfilter]
  cases kind <;> rfl

theorem listsByFlag_of_get?_eq {record block : Entries Json} (h : ListsByFlag block)
    (hset : record.get? "selectionSet" = block.get? "selectionSet")
    (hlists : ∀ kind : ItemKind, record.get? kind.listName = block.get? kind.listName) :
    ListsByFlag record := by
  obtain ⟨items, hitems, hkinds⟩ := h
  exact ⟨items, hset.trans hitems, fun kind => (hlists kind).trans (hkinds kind)⟩

/-- A spread has no lists, all other items have theirs. -/
def ProjectsByFlag (record : Entries Json) : Prop :=
  Sets record "isFragmentSpread" ∨ ListsByFlag record

theorem projectsByFlag_of_mem_encodedItems (selections : Selections) :
    ∀ item ∈ selections.encodedItems, ∀ record ∈ item.2.records, ProjectsByFlag record := by
  induction selections with
  | empty => exact List.forall_mem_nil _
  | field node below rest ihbelow ihrest =>
    refine List.forall_mem_cons.2 ⟨?_, ihrest⟩
    rw [records, List.forall_mem_cons]
    constructor
    · have hlists := listsByFlag_itemMembers (tagged_of_mem_encodedItems below)
      exact .inr (listsByFlag_of_get?_eq hlists rfl fun kind => by cases kind <;> rfl)
    · rw [FieldNode.memberRecords_members]
      exact forall_memberRecords_itemMembers ihbelow
  | spread node rest ih =>
    refine List.forall_mem_cons.2 ⟨?_, ih⟩
    rw [records, List.forall_mem_cons]
    exact ⟨.inl rfl, List.forall_mem_nil _⟩
  | inline node below rest ihbelow ihrest =>
    refine List.forall_mem_cons.2 ⟨?_, ihrest⟩
    rw [records, List.forall_mem_cons]
    constructor
    · have hlists := listsByFlag_itemMembers (tagged_of_mem_encodedItems below)
      exact .inr (listsByFlag_of_get?_eq hlists rfl fun kind => by cases kind <;> rfl)
    · rw [InlineNode.memberRecords_members]
      exact forall_memberRecords_itemMembers ihbelow

theorem projectsByFlag_of_mem_records (selections : Selections) :
    ∀ record ∈ (Json.obj selections.members).records, ProjectsByFlag record := by
  rw [records, List.forall_mem_cons]
  exact ⟨.inr (listsByFlag_itemMembers (tagged_of_mem_encodedItems selections)),
    forall_memberRecords_itemMembers (projectsByFlag_of_mem_encodedItems selections)⟩

theorem map_fst_encodedItems (selections : Selections) :
    selections.encodedItems.map Prod.fst = selections.items.map SelectionItem.kind := by
  induction selections with
  | empty => rfl
  | field node below rest _ ih => exact congrArg (ItemKind.field :: ·) ih
  | spread node rest ih => exact congrArg (ItemKind.spread :: ·) ih
  | inline node below rest _ ih => exact congrArg (ItemKind.inline :: ·) ih

end Selections

/-! ## Equality by items -/

section

variable {φ σ ι : Type} [BEq φ] [BEq σ] [BEq ι]

/-- Equality of the nodes and of the sets below, with the positions of these. -/
def SelectionItem.sameIndexed : SelectionItem φ σ ι → SelectionItem φ σ ι → Bool
  | .field a below, .field b below' => a == b && below.sameIndexed below'
  | .spread a, .spread b => a == b
  | .inline a below, .inline b below' => a == b && below.sameIndexed below'
  | _, _ => false

namespace SelectionSet

theorem sameNodes_iff_forall₂ (a b : SelectionSet φ σ ι) :
    a.sameNodes b = true ↔ List.Forall₂ (fun x y => x.sameIndexed y = true) a.items b.items := by
  induction a generalizing b with
  | empty => cases b <;> simp [sameNodes, items]
  | field node below rest _ ih =>
    cases b <;> simp [sameNodes, items, SelectionItem.sameIndexed, sameIndexed, ih]
  | spread node rest ih =>
    cases b <;> simp [sameNodes, items, SelectionItem.sameIndexed, ih]
  | inline node below rest _ ih =>
    cases b <;> simp [sameNodes, items, SelectionItem.sameIndexed, sameIndexed, ih]

/-- Equal items have equal positions, so that sets are equal just if their items are. -/
theorem sameIndexed_iff_forall₂ (a b : SelectionSet φ σ ι) :
    a.sameIndexed b = true ↔ List.Forall₂ (fun x y => x.sameIndexed y = true) a.items b.items := by
  have hnodes : a.sameIndexed b = a.sameNodes b := by
    rw [sameIndexed_eq_beq, sameNodes_eq_same]
    rfl
  rw [hnodes, sameNodes_iff_forall₂]

end SelectionSet

end

/-! ## Sets made of items -/

namespace SelectionItem

variable {φ σ ι : Type} (item : SelectionItem φ σ ι)

theorem kind_eq_field_iff : item.kind = .field ↔ item.field?.isSome = true := by
  cases item <;> simp [kind, field?]

theorem kind_eq_spread_iff : item.kind = .spread ↔ item.spread?.isSome = true := by
  cases item <;> simp [kind, spread?]

theorem kind_eq_inline_iff : item.kind = .inline ↔ item.inline?.isSome = true := by
  cases item <;> simp [kind, inline?]

end SelectionItem

/-- The positions are those of the items with the part, of which none is left out. These items are
picked, and the flag tells whether there are any. -/
structure ReadsAll {β : Type} (items : List Selection) (part? : Selection → Option β)
    (positions : List Nat) (picked : List Selection) (hasAny : Bool) : Prop where
  read_eq : (positions.map fun position => items[position]?.bind part?) =
    (items.filterMap part?).map some
  picked_eq : picked.map part? = (items.filterMap part?).map some
  hasAny_eq : hasAny = !(items.filterMap part?).isEmpty

theorem readsAll_positionsFrom {β : Type} {part? : Selection → Option β} {kind : ItemKind}
    (hpart : ∀ item : Selection, item.kind = kind ↔ (part? item).isSome = true)
    (items : List Selection) :
    ReadsAll items part? (Indexed.positionsFrom SelectionItem.kind kind 0 items)
      ((Indexed.ofItems SelectionItem.kind items).pick
        (Indexed.positionsFrom SelectionItem.kind kind 0 items))
      (!(Indexed.positionsFrom SelectionItem.kind kind 0 items).isEmpty) := by
  have hread := Indexed.map_getElem?_positionsFrom SelectionItem.kind kind items hpart
  have hempty := congrArg List.isEmpty hread
  rw [List.isEmpty_map, List.isEmpty_map] at hempty
  refine ⟨hread, ?_, congrArg not hempty⟩
  rw [Indexed.pick_positionsFrom, Indexed.map_filter_eq_map_some _ kind items hpart]

/-- The set of these items, the lists by kind that are read from it and those of its JSON form. -/
structure PartitionedByKind (items : List Selection) (set : Selections) : Prop where
  items_eq : set.items = items
  isEmpty_eq : set.isEmpty = items.isEmpty
  positions : set.indexed.SharesOut
  fields : ReadsAll items SelectionItem.field? set.indexed.fieldPositions set.indexed.fields
    set.indexed.hasFields
  spreads : ReadsAll items SelectionItem.spread? set.indexed.spreadPositions set.indexed.spreads
    set.indexed.hasSpreads
  inlines : ReadsAll items SelectionItem.inline? set.indexed.inlinePositions set.indexed.inlines
    set.indexed.hasInlines
  /-- The JSON form reads the forms of the items at the same positions. -/
  encoded_positions : ∀ kind,
    (Indexed.ofItems Prod.fst set.encodedItems).positions kind = set.indexed.positions kind
  encoded_sharesOut : (Indexed.ofItems Prod.fst set.encodedItems).SharesOut
  /-- The lists by kind in the JSON form are filtered by flags, at every depth. -/
  encoded : ∀ record ∈ (Json.obj set.members).records, Selections.ProjectsByFlag record
  sameIndexed_iff : ∀ others, set.sameIndexed (.ofItems others) = true ↔
    List.Forall₂ (fun x y => x.sameIndexed y = true) items others

theorem partitionedByKind_ofItems (items : List Selection) :
    PartitionedByKind items (.ofItems items) where
  items_eq := SelectionSet.items_ofItems items
  isEmpty_eq := by rw [SelectionSet.isEmpty_eq_isEmpty_items, SelectionSet.items_ofItems]
  positions := Indexed.sharesOut_ofItems SelectionItem.kind _
  fields := by
    rw [SelectionSet.indexed, SelectionSet.items_ofItems]
    exact readsAll_positionsFrom SelectionItem.kind_eq_field_iff items
  spreads := by
    rw [SelectionSet.indexed, SelectionSet.items_ofItems]
    exact readsAll_positionsFrom SelectionItem.kind_eq_spread_iff items
  inlines := by
    rw [SelectionSet.indexed, SelectionSet.items_ofItems]
    exact readsAll_positionsFrom SelectionItem.kind_eq_inline_iff items
  encoded_positions kind := by
    rw [SelectionSet.indexed, Indexed.positions_ofItems, Indexed.positions_ofItems,
      Indexed.positionsFrom_eq_map, Selections.map_fst_encodedItems, ← Indexed.positionsFrom_eq_map]
  encoded_sharesOut := Indexed.sharesOut_ofItems Prod.fst _
  encoded := Selections.projectsByFlag_of_mem_records _
  sameIndexed_iff others := by
    rw [SelectionSet.sameIndexed_iff_forall₂, SelectionSet.items_ofItems,
      SelectionSet.items_ofItems]

end GraphQLIR
