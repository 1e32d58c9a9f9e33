import GraphQLIR.Proofs.Selection.Checks
import GraphQLIR.Proofs.Selection.Listing
/-!
# Refused selections

Selections are accepted just if every field at every depth is of a declared type and has
selections of its own unless that type is a leaf. Otherwise they are refused for the first field in
pre-order that is not so. Spreads and inline fragments are never the reason.
-/

namespace GraphQLIR

theorem TypeKind.isLeaf_iff (kind : TypeKind) :
    kind.isLeaf = true ↔ kind = .scalar ∨ kind = .enum := by
  cases kind <;> decide

/-! ## One field -/

/-- A field with its own selections, and the type that the set it stands in selects from. -/
structure FieldSite where
  parent : String
  field : WrittenField
  selections : WrittenSelections

namespace FieldSite

def item (site : FieldSite) : SelectionItem WrittenField WrittenSpread WrittenInline :=
  .field site.field site.selections

/-- The type is declared, and the field has selections just if it is neither a scalar nor an
enum. -/
def WellFormed (catalog : Catalog) (site : FieldSite) : Prop :=
  ∃ kind, catalog.get? site.field.type.innermost = some kind ∧
    (site.selections ≠ .empty ↔ kind ≠ .scalar ∧ kind ≠ .enum)

/-- What is wrong with a field. Its type comes before its selections. -/
inductive Faulty (catalog : Catalog) (site : FieldSite) : Fault → Prop
  | undeclared (hget : catalog.get? site.field.type.innermost = none) :
    Faulty catalog site (.undeclaredType site.field.type.innermost)
  | unexpected {kind : TypeKind} (hget : catalog.get? site.field.type.innermost = some kind)
    (hkind : kind = .scalar ∨ kind = .enum) (hselections : site.selections ≠ .empty) :
    Faulty catalog site
      (.selection site.parent site.field.name site.field.type.text .unexpected)
  | missing {kind : TypeKind} (hget : catalog.get? site.field.type.innermost = some kind)
    (hkind : kind ≠ .scalar ∧ kind ≠ .enum) (hselections : site.selections = .empty) :
    Faulty catalog site
      (.selection site.parent site.field.name site.field.type.text .missing)

def check (site : FieldSite) : Check :=
  .field site.parent site.field.name site.field.type (!site.selections.isEmpty)

variable {catalog : Catalog} {site : FieldSite}

theorem wellFormed_iff {kind : TypeKind}
    (hget : catalog.get? site.field.type.innermost = some kind) :
    site.WellFormed catalog ↔ kind.isLeaf = site.selections.isEmpty := by
  have hkind : (kind ≠ .scalar ∧ kind ≠ .enum) ↔ kind.isLeaf = false := by
    rw [← not_or, ← kind.isLeaf_iff, Bool.not_eq_true]
  have hselections : site.selections ≠ .empty ↔ site.selections.isEmpty = false := by
    rw [ne_eq, ← SelectionSet.isEmpty_eq_true_iff, Bool.not_eq_true]
  simp only [WellFormed, hget, Option.some.injEq, exists_eq_left', hkind, hselections]
  cases kind.isLeaf <;> cases site.selections.isEmpty <;> decide

theorem fault?_check_eq_none_iff : site.check.fault? catalog = none ↔ site.WellFormed catalog := by
  simp only [check, Check.fault?]
  cases hget : catalog.get? site.field.type.innermost with
  | none => simp [WellFormed, hget]
  | some kind =>
    rw [wellFormed_iff hget]
    cases hleaf : kind.isLeaf <;> cases hempty : site.selections.isEmpty <;> simp [hleaf]

theorem Faulty.fault?_check_eq {fault : Fault} (h : Faulty catalog site fault) :
    site.check.fault? catalog = some fault := by
  cases h with
  | undeclared hget => simp [check, Check.fault?, hget]
  | @unexpected kind hget hkind hselections =>
    have hleaf : kind.isLeaf = true := kind.isLeaf_iff.2 hkind
    have hempty : site.selections.isEmpty = false := by
      rwa [ne_eq, ← SelectionSet.isEmpty_eq_true_iff, Bool.not_eq_true] at hselections
    simp [check, Check.fault?, hget, hleaf, hempty]
  | @missing kind hget hkind hselections =>
    have hleaf : kind.isLeaf = false := by
      rwa [← not_or, ← kind.isLeaf_iff, Bool.not_eq_true] at hkind
    have hempty : site.selections.isEmpty = true :=
      SelectionSet.isEmpty_eq_true_iff.2 hselections
    simp [check, Check.fault?, hget, hleaf, hempty]

/-- A field that is not well-formed has one fault. -/
theorem exists_faulty (h : ¬ site.WellFormed catalog) : ∃ fault, Faulty catalog site fault := by
  cases hget : catalog.get? site.field.type.innermost with
  | none => exact ⟨_, .undeclared hget⟩
  | some kind =>
    rw [wellFormed_iff hget] at h
    cases hleaf : kind.isLeaf with
    | true =>
      refine ⟨_, .unexpected hget (kind.isLeaf_iff.1 hleaf) fun hselections => h ?_⟩
      rw [hleaf, SelectionSet.isEmpty_eq_true_iff.2 hselections]
    | false =>
      have hkind : kind ≠ .scalar ∧ kind ≠ .enum := by
        rw [← not_or, ← kind.isLeaf_iff, hleaf]
        exact Bool.false_ne_true
      refine ⟨_, .missing hget hkind ?_⟩
      rw [← SelectionSet.isEmpty_eq_true_iff, ← Bool.not_eq_false]
      exact fun hempty => h (hleaf.trans hempty.symm)

theorem fault?_check_eq_some_iff {fault : Fault} :
    site.check.fault? catalog = some fault ↔ Faulty catalog site fault := by
  refine ⟨fun h => ?_, Faulty.fault?_check_eq⟩
  have hfaulty : ¬ site.WellFormed catalog := by
    rw [← fault?_check_eq_none_iff, h]
    exact Option.some_ne_none fault
  obtain ⟨other, hother⟩ := exists_faulty hfaulty
  have hsame : other = fault := Option.some.inj (hother.fault?_check_eq.symm.trans h)
  exact hsame ▸ hother

end FieldSite

/-! ## Fields at every depth -/

namespace WrittenSelections

/-- The fields at every depth, each ahead of those below it. `parent` is the type that the
selections select from. -/
def sites (parent : String) : WrittenSelections → List FieldSite
  | .empty => []
  | .field field selections rest =>
    ⟨parent, field, selections⟩ :: (sites field.selectsFrom selections ++ sites parent rest)
  | .spread _ rest => sites parent rest
  | .inline inline selections rest =>
    sites inline.selectsFrom selections ++ sites parent rest

/-- The item stands at some depth, in a set that selects from the given type. -/
inductive ItemAt (parent : String) (written : WrittenSelections) :
    String → SelectionItem WrittenField WrittenSpread WrittenInline → Prop
  | top {item} (hitem : item ∈ written.items) : ItemAt parent written parent item
  | belowField {outer field selections item} (hfield : ItemAt parent written outer
      (.field field selections)) (hitem : item ∈ selections.items) :
    ItemAt parent written field.selectsFrom item
  | belowInline {outer inline selections item} (hinline : ItemAt parent written outer
      (.inline inline selections)) (hitem : item ∈ selections.items) :
    ItemAt parent written inline.selectsFrom item

theorem checks_eq_map_sites (parent : String) (written : WrittenSelections) :
    written.checks parent = (written.sites parent).map FieldSite.check := by
  induction written generalizing parent with
  | empty => rfl
  | field field selections rest ihbelow ihlater =>
    rw [checks, sites, List.map_cons, List.map_append, ihbelow, ihlater]
    rfl
  | spread spread rest ih => exact ih parent
  | inline inline selections rest ihbelow ihlater =>
    rw [checks, sites, List.map_append, ihbelow, ihlater]

/-- The sites are the fields in pre-order. -/
theorem map_item_sites (parent : String) (written : WrittenSelections) :
    (written.sites parent).map FieldSite.item =
      written.preorder.filter fun item => item.kind = .field := by
  induction written generalizing parent with
  | empty => rfl
  | field field selections rest ihbelow ihlater =>
    rw [sites, SelectionSet.preorder, List.map_cons, List.map_append, ihbelow, ihlater,
      List.filter_cons_of_pos (by rfl), List.filter_append]
    rfl
  | spread spread rest ih =>
    rw [sites, SelectionSet.preorder, List.filter_cons_of_neg (by simp [SelectionItem.kind]), ih]
  | inline inline selections rest ihbelow ihlater =>
    rw [sites, SelectionSet.preorder, List.map_append, ihbelow, ihlater,
      List.filter_cons_of_neg (by simp [SelectionItem.kind]), List.filter_append]

/-- The sites of one item of a set that selects from `parent`. -/
def itemSites (parent : String) :
    SelectionItem WrittenField WrittenSpread WrittenInline → List FieldSite
  | .field field selections =>
    ⟨parent, field, selections⟩ :: sites field.selectsFrom selections
  | .spread _ => []
  | .inline inline selections => sites inline.selectsFrom selections

theorem sites_eq_flatMap_items (parent : String) (written : WrittenSelections) :
    written.sites parent = written.items.flatMap (itemSites parent) := by
  induction written with
  | empty => rfl
  | field field selections rest _ ih =>
    rw [sites, SelectionSet.items, List.flatMap_cons, ih]
    rfl
  | spread spread rest ih => exact ih
  | inline inline selections rest _ ih =>
    rw [sites, SelectionSet.items, List.flatMap_cons, ih]
    rfl

theorem itemSites_subset {set : WrittenSelections} (parent : String)
    {item : SelectionItem WrittenField WrittenSpread WrittenInline} (hitem : item ∈ set.items) :
    itemSites parent item ⊆ set.sites parent := by
  intro site hsite
  rw [sites_eq_flatMap_items]
  exact List.mem_flatMap.2 ⟨item, hitem, hsite⟩

namespace ItemAt

variable {parent selectsFrom : String} {written : WrittenSelections}
  {item : SelectionItem WrittenField WrittenSpread WrittenInline}

/-- A set whose items all stand at some depth has nothing below them that does not. -/
theorem trans {inner : String} {set : WrittenSelections}
    (htop : ∀ other ∈ set.items, ItemAt parent written inner other)
    (h : ItemAt inner set selectsFrom item) : ItemAt parent written selectsFrom item := by
  induction h with
  | top hitem => exact htop _ hitem
  | belowField _ hitem ih => exact .belowField ih hitem
  | belowInline _ hitem ih => exact .belowInline ih hitem

theorem itemSites_subset (h : ItemAt parent written selectsFrom item) :
    itemSites selectsFrom item ⊆ written.sites parent := by
  induction h with
  | top hitem => exact WrittenSelections.itemSites_subset parent hitem
  | belowField _ hitem ih =>
    exact fun site hsite => ih (List.mem_cons_of_mem _
      (WrittenSelections.itemSites_subset _ hitem hsite))
  | belowInline _ hitem ih =>
    exact fun site hsite => ih (WrittenSelections.itemSites_subset _ hitem hsite)

end ItemAt

/-- Every site is a field of the set that selects from its type, and the other way round. -/
theorem mem_sites_iff {parent : String} {written : WrittenSelections} {site : FieldSite} :
    site ∈ written.sites parent ↔ ItemAt parent written site.parent site.item := by
  refine ⟨fun hsite => ?_, fun h => h.itemSites_subset List.mem_cons_self⟩
  induction written generalizing parent with
  | empty => cases hsite
  | field field selections rest ihbelow ihlater =>
    rw [sites, List.mem_cons, List.mem_append] at hsite
    rcases hsite with rfl | hbelow | hlater
    · exact .top List.mem_cons_self
    · exact .trans (fun _ hitem => .belowField (.top List.mem_cons_self) hitem) (ihbelow hbelow)
    · exact .trans (fun _ hitem => .top (List.mem_cons_of_mem _ hitem)) (ihlater hlater)
  | spread spread rest ih =>
    exact .trans (fun _ hitem => .top (List.mem_cons_of_mem _ hitem)) (ih hsite)
  | inline inline selections rest ihbelow ihlater =>
    rw [sites, List.mem_append] at hsite
    rcases hsite with hbelow | hlater
    · exact .trans (fun _ hitem => .belowInline (.top List.mem_cons_self) hitem) (ihbelow hbelow)
    · exact .trans (fun _ hitem => .top (List.mem_cons_of_mem _ hitem)) (ihlater hlater)

/-! ## First faults -/

section

variable [NumberReader]

theorem faultOf_normalize_eq_findSome?_sites (catalog : Catalog) (parent : String)
    (written : WrittenSelections) :
    faultOf (written.normalize catalog parent) =
      (written.sites parent).findSome? fun site => site.check.fault? catalog := by
  rw [faultOf_normalize, checks_eq_map_sites, List.findSome?_map]
  rfl

/-- The selections are refused for the first field in pre-order that is not well-formed, if any. -/
structure FailsAtFirstField (catalog : Catalog) (parent : String) (written : WrittenSelections) :
    Prop where
  accepted_iff : (∃ normal, written.normalize catalog parent = .ok normal) ↔
    ∀ selectsFrom field selections,
      ItemAt parent written selectsFrom (.field field selections) →
      FieldSite.WellFormed catalog ⟨selectsFrom, field, selections⟩
  refused_iff : ∀ fault, written.normalize catalog parent = .error fault ↔
    ∃ earlier site later, written.sites parent = earlier ++ site :: later ∧
      site.Faulty catalog fault ∧ ∀ other ∈ earlier, other.WellFormed catalog
  map_item_sites : (written.sites parent).map FieldSite.item =
    written.preorder.filter fun item => item.kind = .field
  parent_of_site : ∀ site ∈ written.sites parent, ItemAt parent written site.parent site.item
  /-- Whatever spreads and inline fragments there are, only a field can be refused. -/
  withoutFields : (∀ item ∈ written.preorder, item.kind ≠ .field) →
    ∃ normal, written.normalize catalog parent = .ok normal

theorem accepted_iff_wellFormed (catalog : Catalog) (parent : String)
    (written : WrittenSelections) :
    (∃ normal, written.normalize catalog parent = .ok normal) ↔
      ∀ site ∈ written.sites parent, site.WellFormed catalog := by
  rw [← faultOf_eq_none_iff, faultOf_normalize_eq_findSome?_sites, List.findSome?_eq_none_iff]
  simp only [FieldSite.fault?_check_eq_none_iff]

theorem failsAtFirstField (catalog : Catalog) (parent : String) (written : WrittenSelections) :
    FailsAtFirstField catalog parent written where
  accepted_iff := by
    rw [accepted_iff_wellFormed]
    constructor
    · intro h selectsFrom field selections hitem
      exact h ⟨selectsFrom, field, selections⟩ (mem_sites_iff.2 hitem)
    · intro h site hsite
      exact h site.parent site.field site.selections (mem_sites_iff.1 hsite)
  refused_iff fault := by
    rw [← faultOf_eq_some_iff, faultOf_normalize_eq_findSome?_sites,
      List.findSome?_eq_some_iff]
    simp only [FieldSite.fault?_check_eq_some_iff, FieldSite.fault?_check_eq_none_iff]
  map_item_sites := map_item_sites parent written
  parent_of_site _ hsite := mem_sites_iff.1 hsite
  withoutFields h := by
    rw [accepted_iff_wellFormed]
    intro site hsite
    have hmem : site.item ∈ written.preorder.filter fun item => item.kind = .field := by
      rw [← map_item_sites parent]
      exact List.mem_map_of_mem hsite
    exact absurd rfl (h site.item (List.mem_filter.1 hmem).1)

/-- Below an inline fragment the type that it selects from counts, and the name of the field and
not its alias. -/
example :
    normalize (.ofList [("ID", .scalar), ("User", .object)]) "Node"
      (.spread ⟨"F", []⟩ (.inline ⟨"User", true, []⟩
        (.field ⟨"id", none, .named "ID", "ID", []⟩ .empty
          (.field ⟨"friends", some "f", .list (.named "User"), "User", []⟩ .empty .empty))
        .empty)) =
      .error (.selection "User" "friends" "[User]" .missing) := rfl

end

end WrittenSelections

end GraphQLIR
