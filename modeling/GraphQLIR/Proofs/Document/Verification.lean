import GraphQLIR.Proofs.Document.Resolution
/-!
# Verified spreads

Verification passes just if every spread in a definition resolves, however deep it stands, and
otherwise names the first one that does not. Fragments are not entered where they are spread: of
the fragments of a document only the names matter, and those that spread each other in a circle are
no exception.
-/

namespace GraphQLIR

/-! ## Spreads at some depth -/

namespace Selections

/-- The spread is an item of the selections, or stands below one of their fields or inline
fragments. Whether a field is a leaf makes no difference. -/
inductive Holds (spread : SpreadNode) : Selections → Prop
  | item {selections : Selections} (hitem : .spread spread ∈ selections.items) :
    Holds spread selections
  | belowField {selections below : Selections} {node : FieldNode}
    (hitem : .field node below ∈ selections.items) (hbelow : Holds spread below) :
    Holds spread selections
  | belowInline {selections below : Selections} {node : InlineNode}
    (hitem : .inline node below ∈ selections.items) (hbelow : Holds spread below) :
    Holds spread selections

theorem Holds.of_subset {spread : SpreadNode} {first second : Selections}
    (hitems : first.items ⊆ second.items) (h : Holds spread first) : Holds spread second := by
  cases h with
  | item hitem => exact .item (hitems hitem)
  | belowField hitem hbelow => exact .belowField (hitems hitem) hbelow
  | belowInline hitem hbelow => exact .belowInline (hitems hitem) hbelow

/-- The spreads of one item, at every depth. -/
def itemSpreads : Selection → List SpreadNode
  | .field _ below => spreads below
  | .spread spread => [spread]
  | .inline _ below => spreads below

theorem spreads_eq_flatMap_items (selections : Selections) :
    selections.spreads = selections.items.flatMap itemSpreads := by
  induction selections with
  | empty => rfl
  | field node below rest _ ih =>
    rw [spreads_field, SelectionSet.items, List.flatMap_cons, ih, itemSpreads]
  | spread node rest ih =>
    rw [spreads_spread, SelectionSet.items, List.flatMap_cons, ih, itemSpreads, List.singleton_append]
  | inline node below rest _ ih =>
    rw [spreads_inline, SelectionSet.items, List.flatMap_cons, ih, itemSpreads]

theorem Holds.mem_spreads {spread : SpreadNode} {selections : Selections}
    (h : Holds spread selections) : spread ∈ selections.spreads := by
  induction h with
  | item hitem =>
    rw [spreads_eq_flatMap_items]
    exact List.mem_flatMap.2 ⟨_, hitem, List.mem_singleton_self spread⟩
  | belowField hitem _ ih =>
    rw [spreads_eq_flatMap_items]
    exact List.mem_flatMap.2 ⟨_, hitem, by rwa [itemSpreads]⟩
  | belowInline hitem _ ih =>
    rw [spreads_eq_flatMap_items]
    exact List.mem_flatMap.2 ⟨_, hitem, by rwa [itemSpreads]⟩

/-- The listing in pre-order leaves out no spread and adds none. -/
theorem mem_spreads_iff {spread : SpreadNode} {selections : Selections} :
    spread ∈ selections.spreads ↔ Holds spread selections := by
  refine ⟨fun hspread => ?_, Holds.mem_spreads⟩
  induction selections with
  | empty => cases hspread
  | field node below rest ihbelow ihlater =>
    rw [spreads_field, List.mem_append] at hspread
    rcases hspread with hbelow | hlater
    · exact .belowField List.mem_cons_self (ihbelow hbelow)
    · exact (ihlater hlater).of_subset (List.subset_cons_self _ _)
  | spread node rest ih =>
    rw [spreads_spread, List.mem_cons] at hspread
    rcases hspread with rfl | hlater
    · exact .item List.mem_cons_self
    · exact (ih hlater).of_subset (List.subset_cons_self _ _)
  | inline node below rest ihbelow ihlater =>
    rw [spreads_inline, List.mem_append] at hspread
    rcases hspread with hbelow | hlater
    · exact .belowInline List.mem_cons_self (ihbelow hbelow)
    · exact (ihlater hlater).of_subset (List.subset_cons_self _ _)

end Selections

/-! ## Outcomes -/

namespace Document

/-- The spread stands in a fragment or an operation. -/
def Holds (document : Document) (spread : SpreadNode) : Prop :=
  (∃ fragment ∈ document.fragments, fragment.selections.Holds spread) ∨
    ∃ operation ∈ document.operations, operation.selections.Holds spread

theorem mem_spreads_iff (document : Document) (spread : SpreadNode) :
    spread ∈ document.spreads ↔ document.Holds spread := by
  simp only [spreads, Holds, List.mem_append, List.mem_flatMap, Selections.mem_spreads_iff]

theorem mem_fragmentNames {document : Document} {name : String} :
    name ∈ document.fragmentNames ↔ ∃ fragment ∈ document.fragments, fragment.name = name :=
  List.mem_map

/-- Of the fragments only the names matter. -/
theorem faultOf_resolve (document : Document) (spread : SpreadNode) :
    faultOf (document.resolve spread) =
      if spread.fragmentName ∈ document.fragmentNames then none
      else some (.undefinedFragment spread.fragmentName) := by
  by_cases hdefined : spread.fragmentName ∈ document.fragmentNames
  · rw [if_pos hdefined, faultOf_resolve_eq_none_iff]
    exact hdefined
  · have hnone : document.fragment? spread.fragmentName = none :=
      (document.fragment?_eq_none_iff_notMem spread.fragmentName).2 hdefined
    rw [if_neg hdefined, resolve, hnone, faultOf]

theorem exists_resolve_iff (document : Document) (spread : SpreadNode) :
    (∃ fragment, document.resolve spread = .ok fragment) ↔
      ∃ fragment ∈ document.fragments, fragment.name = spread.fragmentName := by
  rw [← faultOf_eq_none_iff, faultOf_resolve_eq_none_iff, mem_fragmentNames]

theorem faultOf_resolve_eq_some_iff (document : Document) (spread : SpreadNode) (fault : Fault) :
    faultOf (document.resolve spread) = some fault ↔
      (∀ fragment ∈ document.fragments, fragment.name ≠ spread.fragmentName) ∧
        fault = .undefinedFragment spread.fragmentName := by
  have hmissing : spread.fragmentName ∉ document.fragmentNames ↔
      ∀ fragment ∈ document.fragments, fragment.name ≠ spread.fragmentName := by
    rw [mem_fragmentNames]
    push Not
    rfl
  rw [faultOf_resolve, ← hmissing, Option.ite_none_left_eq_some, Option.some.injEq, eq_comm]

/-- Spreads are not followed: what the fragments select makes no difference. -/
theorem checkSelections_congr {first second : Document}
    (hnames : ∀ name, name ∈ first.fragmentNames ↔ name ∈ second.fragmentNames)
    (selections : Selections) :
    first.checkSelections selections = second.checkSelections selections := by
  apply eq_of_faultOf_eq
  rw [faultOf_checkSelections, faultOf_checkSelections]
  congr 1
  funext spread
  rw [faultOf_resolve, faultOf_resolve]
  simp only [hnames]

/-- Verification stops at the first spread in pre-order that does not resolve. -/
theorem checkSpreads_eq_error_iff (document : Document) (fault : Fault) :
    document.checkSpreads = .error fault ↔
      ∃ earlier spread later, document.spreads = earlier ++ spread :: later ∧
        ((∀ fragment ∈ document.fragments, fragment.name ≠ spread.fragmentName) ∧
          fault = .undefinedFragment spread.fragmentName) ∧
        ∀ other ∈ earlier, ∃ fragment, document.resolve other = .ok fragment := by
  rw [← faultOf_eq_some_iff, faultOf_checkSpreads, List.findSome?_eq_some_iff]
  simp only [faultOf_resolve_eq_some_iff, faultOf_eq_none_iff]

/-- What verification answers for a document, whatever fragments and spreads it has. -/
structure VerifiesSpreads (document : Document) : Prop where
  answers : document.checkSpreads = .ok () ∨ ∃ spread, document.Holds spread ∧
    document.checkSpreads = .error (.undefinedFragment spread.fragmentName)
  passes_iff_resolved : document.checkSpreads = .ok () ↔
    ∀ spread, document.Holds spread → ∃ fragment, document.resolve spread = .ok fragment
  passes_iff_defined : document.checkSpreads = .ok () ↔
    ∀ spread, document.Holds spread →
      ∃ fragment ∈ document.fragments, fragment.name = spread.fragmentName
  fails_iff : ∀ fault, document.checkSpreads = .error fault ↔
    ∃ earlier spread later, document.spreads = earlier ++ spread :: later ∧
      ((∀ fragment ∈ document.fragments, fragment.name ≠ spread.fragmentName) ∧
        fault = .undefinedFragment spread.fragmentName) ∧
      ∀ other ∈ earlier, ∃ fragment, document.resolve other = .ok fragment
  mem_spreads_iff : ∀ spread, spread ∈ document.spreads ↔ document.Holds spread
  notFollowed : ∀ other : Document,
    (∀ name, name ∈ other.fragmentNames ↔ name ∈ document.fragmentNames) →
    ∀ selections, other.checkSelections selections = document.checkSelections selections

theorem verifiesSpreads (document : Document) : VerifiesSpreads document where
  answers := by
    cases hcheck : document.checkSpreads with
    | ok _ => exact Or.inl rfl
    | error fault =>
      obtain ⟨earlier, spread, later, hspreads, ⟨-, rfl⟩, -⟩ :=
        (document.checkSpreads_eq_error_iff fault).1 hcheck
      have hmem : spread ∈ document.spreads := hspreads ▸ List.mem_append_cons_self
      exact Or.inr ⟨spread, (document.mem_spreads_iff spread).1 hmem, rfl⟩
  passes_iff_resolved := by
    simp only [checkSpreads_eq_ok_iff, mem_spreads_iff, exists_resolve_iff, mem_fragmentNames]
  passes_iff_defined := by
    simp only [checkSpreads_eq_ok_iff, mem_spreads_iff, mem_fragmentNames]
  fails_iff := document.checkSpreads_eq_error_iff
  mem_spreads_iff := document.mem_spreads_iff
  notFollowed _ hnames := checkSelections_congr hnames

/-- A fragment that spreads itself, and below a leaf field an undefined one, which comes before that
of the operation. -/
example :
    let id : FieldNode := ⟨"id", none, ⟨"ID", "ID", .scalar, false, false, false⟩, default⟩
    checkSpreads (ofDefinitions
      ⟨[⟨"A", "User", .spread ⟨"A", default⟩ (.field id (.spread ⟨"B", default⟩ .empty) .empty),
          "", default⟩],
        [⟨none, .query, [], false, .spread ⟨"C", default⟩ .empty, "", default⟩]⟩) =
      .error (.undefinedFragment "B") := rfl

end Document

end GraphQLIR
