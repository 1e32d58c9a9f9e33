import GraphQLIR.Document.Spreads
import GraphQLIR.Proofs.Document.Batches
import GraphQLIR.Proofs.Selection.Listing
/-!
# Resolved spreads

A document passes verification just if it defines the fragment of every spread in it, at any depth.
Of two documents put one after the other, the later fragments replace earlier ones, but no name
becomes undefined. A spread that resolved before therefore still does, though perhaps to the
fragment of the later document.
-/

namespace GraphQLIR

/-! ## All spreads -/

namespace Selections

/-- The spreads at every depth, in pre-order. -/
def spreads (selections : Selections) : List SpreadNode :=
  selections.preorder.filterMap SelectionItem.spread?

theorem spreads_field (node : FieldNode) (selections rest : Selections) :
    spreads (.field node selections rest) = selections.spreads ++ rest.spreads :=
  List.filterMap_append

theorem spreads_spread (node : SpreadNode) (rest : Selections) :
    spreads (.spread node rest) = node :: rest.spreads := rfl

theorem spreads_inline (node : InlineNode) (selections rest : Selections) :
    spreads (.inline node selections rest) = selections.spreads ++ rest.spreads :=
  List.filterMap_append

end Selections

namespace Document

/-- The spreads of all fragments, then those of all operations. -/
def spreads (document : Document) : List SpreadNode :=
  (document.fragments.flatMap fun fragment => fragment.selections.spreads) ++
    document.operations.flatMap fun operation => operation.selections.spreads

/-- The names of the defined fragments. -/
def fragmentNames (document : Document) : List String :=
  document.fragments.map Fragment.name

/-! ## Verification -/

theorem resolve_eq_ok_iff {document : Document} {spread : SpreadNode} {fragment : Fragment} :
    document.resolve spread = .ok fragment ↔
      document.fragment? spread.fragmentName = some fragment := by
  unfold resolve
  cases document.fragment? spread.fragmentName with
  | none => simp
  | some found => simp

theorem faultOf_resolve_eq_none_iff (document : Document) (spread : SpreadNode) :
    faultOf (document.resolve spread) = none ↔ spread.fragmentName ∈ document.fragmentNames := by
  have hname := document.fragment?_eq_none_iff_notMem spread.fragmentName
  unfold resolve fragmentNames
  cases hfind : document.fragment? spread.fragmentName with
  | none => simpa [faultOf] using hname.1 hfind
  | some found => simpa [faultOf, hfind] using hname

theorem faultOf_checkSelections (document : Document) (selections : Selections) :
    faultOf (document.checkSelections selections) =
      selections.spreads.findSome? fun spread => faultOf (document.resolve spread) := by
  induction selections with
  | empty => rfl
  | field node selections rest ihbelow ihlater =>
    rw [Selections.spreads_field, List.findSome?_append, ← ihbelow, ← ihlater]
    exact faultOf_bind fun _ _ => rfl
  | spread node rest ih =>
    rw [Selections.spreads_spread, List.findSome?_cons, ← ih]
    refine (faultOf_bind fun _ _ => rfl).trans ?_
    cases faultOf (document.resolve node) <;> rfl
  | inline node selections rest ihbelow ihlater =>
    rw [Selections.spreads_inline, List.findSome?_append, ← ihbelow, ← ihlater]
    exact faultOf_bind fun _ _ => rfl

/-- Verification has the fault of the first spread that cannot be resolved. -/
theorem faultOf_checkSpreads (document : Document) :
    faultOf document.checkSpreads =
      document.spreads.findSome? fun spread => faultOf (document.resolve spread) := by
  rw [spreads, List.findSome?_append, findSome?_flatMap, findSome?_flatMap]
  refine (faultOf_bind fun _ _ => rfl).trans ?_
  rw [faultOf_forM, faultOf_forM]
  simp only [faultOf_checkSelections]

theorem checkSpreads_eq_ok_iff (document : Document) :
    document.checkSpreads = .ok () ↔
      ∀ spread ∈ document.spreads, spread.fragmentName ∈ document.fragmentNames := by
  have hok : document.checkSpreads = .ok () ↔ faultOf document.checkSpreads = none := by
    rw [faultOf_eq_none_iff]
    exact ⟨fun h => ⟨(), h⟩, fun ⟨_, h⟩ => h⟩
  rw [hok, faultOf_checkSpreads, List.findSome?_eq_none_iff]
  simp only [faultOf_resolve_eq_none_iff]

/-! ## Documents put one after the other -/

/-- A document has no spread that neither of its parts has. -/
theorem mem_spreads_followedBy {first second : Document} {spread : SpreadNode}
    (h : spread ∈ (first.followedBy second).spreads) :
    spread ∈ first.spreads ∨ spread ∈ second.spreads := by
  unfold spreads followedBy at *
  simp only [List.flatMap_append, List.mem_append, List.mem_flatMap] at h ⊢
  rcases h with (⟨fragment, hfragment, hspread⟩ | hfragment) | (hoperation | hoperation)
  · exact Or.inl (Or.inl ⟨fragment, (List.mem_filter.1 hfragment).1, hspread⟩)
  · exact Or.inr (Or.inl hfragment)
  · exact Or.inl (Or.inr hoperation)
  · exact Or.inr (Or.inr hoperation)

/-- Of the fragments that stay of the earlier document, none has a name of the later one. -/
theorem find?_notOverridden (first second : Document) (name : String) :
    (first.fragments.filter
        fun fragment => fragment.name ∉ second.fragments.map Fragment.name).find?
      (fun fragment => fragment.name == name) =
      if name ∈ second.fragmentNames then none else first.fragment? name := by
  by_cases hname : name ∈ second.fragmentNames
  · rw [if_pos hname, List.find?_eq_none]
    intro fragment hfragment hfound
    have hkept := (List.mem_filter.1 hfragment).2
    rw [decide_eq_true_eq] at hkept
    exact hkept (beq_iff_eq.1 hfound ▸ hname)
  · rw [if_neg hname, List.find?_filter, fragment?]
    congr 1
    funext fragment
    by_cases hfound : fragment.name = name
    · have hkept : name ∉ second.fragments.map Fragment.name := hname
      rw [hfound, decide_eq_true hkept]
      simp
    · simp [hfound]

/-- A fragment of the later document comes before one of its name in the earlier document. -/
theorem fragment?_followedBy (first second : Document) (name : String) :
    (first.followedBy second).fragment? name =
      (second.fragment? name).or (first.fragment? name) := by
  have hnone : second.fragment? name = none ↔ name ∉ second.fragmentNames :=
    second.fragment?_eq_none_iff_notMem name
  rw [fragment?, followedBy, List.find?_append, find?_notOverridden]
  cases hsecond : second.fragment? name with
  | none =>
    rw [if_neg (hnone.1 hsecond), ← fragment?, hsecond]
    simp
  | some later =>
    have hdefined : name ∈ second.fragmentNames := by
      by_contra hnot
      rw [hnone.2 hnot] at hsecond
      cases hsecond
    rw [if_pos hdefined, ← fragment?, hsecond]
    rfl

theorem checkSpreads_followedBy {first second : Document} (hfirst : first.checkSpreads = .ok ())
    (hsecond : second.checkSpreads = .ok ()) :
    (first.followedBy second).checkSpreads = .ok () := by
  rw [checkSpreads_eq_ok_iff] at hfirst hsecond ⊢
  intro spread hspread
  have hnames := mem_names_followedBy first second spread.fragmentName
  rcases mem_spreads_followedBy hspread with hin | hin
  · exact hnames.2 (Or.inl (hfirst spread hin))
  · exact hnames.2 (Or.inr (hsecond spread hin))

/-- The spread resolves to the later definition of its name, or else to the earlier one. -/
structure ResolvesLast (before after merged : Document) (spread : SpreadNode)
    (fragment : Fragment) : Prop where
  resolve_eq : merged.resolve spread = .ok fragment
  mem_fragments : fragment ∈ merged.fragments
  name_eq : fragment.name = spread.fragmentName
  later : ∀ other, after.fragment? spread.fragmentName = some other → fragment = other
  earlier : after.fragment? spread.fragmentName = none →
    before.fragment? spread.fragmentName = some fragment

theorem exists_resolvesLast {before after : Document} {spread : SpreadNode}
    (hdefined : spread.fragmentName ∈ (before.followedBy after).fragmentNames) :
    ∃ fragment, ResolvesLast before after (before.followedBy after) spread fragment := by
  have hfault := (faultOf_resolve_eq_none_iff _ spread).2 hdefined
  obtain ⟨fragment, hresolve⟩ := faultOf_eq_none_iff.1 hfault
  have hfind := resolve_eq_ok_iff.1 hresolve
  have hlast := (fragment?_followedBy before after spread.fragmentName).symm.trans hfind
  have hname : fragment.name = spread.fragmentName := by
    simpa using List.find?_some hfind
  refine ⟨fragment, hresolve, List.mem_of_find?_eq_some hfind, hname, ?_, ?_⟩
  · intro other hother
    rw [hother] at hlast
    exact (Option.some.inj hlast).symm
  · intro hnone
    rw [hnone] at hlast
    exact hlast

/-- Documents that are verified batch by batch are verified all together. -/
theorem ofDocuments_append_checkSpreads [NumberReader] {catalog : Catalog}
    {first second : List ExecutableDocument} {before after : Document}
    (hfirst : ofDocuments catalog first = .ok before)
    (hsecond : ofDocuments catalog second = .ok after) (hbefore : before.checkSpreads = .ok ())
    (hafter : after.checkSpreads = .ok ()) :
    ∃ merged, ofDocuments catalog (first ++ second) = .ok merged ∧
      merged.checkSpreads = .ok () ∧
      ∀ spread ∈ merged.spreads, ∃ fragment, ResolvesLast before after merged spread fragment := by
  have hmerged := checkSpreads_followedBy hbefore hafter
  refine ⟨before.followedBy after, ?_, hmerged, fun spread hspread => ?_⟩
  · rw [ofDocuments_append, hfirst, hsecond]
    rfl
  · exact exists_resolvesLast ((checkSpreads_eq_ok_iff _).1 hmerged spread hspread)

/-- Fragments that spread each other: each name with the name that its fragment spreads in an
inline fragment. -/
def spreading (names : List (String × String)) : ExecutableDocument where
  source := none
  fragments := .ofList <| names.map fun (name, spread) => (name, {
    selectsFrom := "User"
    directives := []
    selections := .inline ⟨"User", true, []⟩ (.spread ⟨spread, []⟩ .empty) .empty
    origin := ⟨none, ""⟩ })
  anonymous := none
  named := .empty

section

open NumberReader.Nearest

/-- The second document overrides a fragment that the first one spreads, and spreads a new one. -/
theorem checkSpreads_spreading :
    ∃ before after merged, ofDocuments .empty [spreading [("A", "B"), ("B", "A")]] = .ok before ∧
      ofDocuments .empty [spreading [("B", "C"), ("C", "B")]] = .ok after ∧
      before.checkSpreads = .ok () ∧ after.checkSpreads = .ok () ∧
      ofDocuments .empty [spreading [("A", "B"), ("B", "A")], spreading [("B", "C"), ("C", "B")]] =
        .ok merged ∧
      merged.checkSpreads = .ok () ∧ merged.spreads.map SpreadNode.fragmentName = ["B", "C", "B"] ∧
      ∀ spread ∈ merged.spreads, ∃ fragment,
        ResolvesLast before after merged spread fragment := by
  obtain ⟨merged, hmerged, hcheck, hresolves⟩ :=
    @ofDocuments_append_checkSpreads _ .empty [spreading [("A", "B"), ("B", "A")]]
      [spreading [("B", "C"), ("C", "B")]] _ _ rfl rfl rfl rfl
  have hspreads : merged.spreads.map SpreadNode.fragmentName = ["B", "C", "B"] := by
    rw [← Except.ok.inj hmerged]
    rfl
  exact ⟨_, _, merged, rfl, rfl, rfl, rfl, hmerged, hcheck, hspreads, hresolves⟩

end

end Document

end GraphQLIR
