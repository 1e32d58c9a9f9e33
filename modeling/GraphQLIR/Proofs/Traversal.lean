import Mathlib.Data.List.Forall2
import Mathlib.Data.List.Perm.Basic
/-!
# Traversals that may fail

A computation in steps succeeds just if all its steps do, and then its result consists of theirs.
Otherwise it has the fault of the first step that fails.
-/

namespace GraphQLIR

variable {ε α β : Type}

theorem bind_eq_ok_iff {first : Except ε α} {next : α → Except ε β} {result : β} :
    first >>= next = .ok result ↔ ∃ value, first = .ok value ∧ next value = .ok result := by
  cases first with
  | error fault => simp [bind, Except.bind]
  | ok value => simp [bind, Except.bind]

theorem map_eq_ok_iff {f : α → β} {first : Except ε α} {result : β} :
    f <$> first = .ok result ↔ ∃ value, first = .ok value ∧ f value = result := by
  cases first with
  | error fault => simp [Functor.map, Except.map]
  | ok value => simp [Functor.map, Except.map]

theorem mapM_eq_ok_iff {f : α → Except ε β} {items : List α} {results : List β} :
    items.mapM f = .ok results ↔
      List.Forall₂ (fun item result => f item = .ok result) items results := by
  induction items generalizing results with
  | nil =>
    rw [List.forall₂_nil_left_iff]
    exact ⟨fun h => (Except.ok.inj h).symm, fun h => congrArg Except.ok h.symm⟩
  | cons item rest ih =>
    rw [List.mapM_cons, List.forall₂_cons_left_iff, bind_eq_ok_iff]
    constructor
    · rintro ⟨result, hitem, hrest⟩
      obtain ⟨later, hlater, hresults⟩ := bind_eq_ok_iff.1 hrest
      exact ⟨result, later, hitem, ih.1 hlater, (Except.ok.inj hresults).symm⟩
    · rintro ⟨result, later, hitem, hlater, rfl⟩
      exact ⟨result, hitem, bind_eq_ok_iff.2 ⟨later, ih.2 hlater, rfl⟩⟩

theorem mapM_congr {f g : α → Except ε β} {items : List α} (h : ∀ item ∈ items, f item = g item) :
    items.mapM f = items.mapM g := by
  induction items with
  | nil => rfl
  | cons item rest ih =>
    have hrest : rest.mapM f = rest.mapM g :=
      ih fun other hother => h other (List.mem_cons_of_mem _ hother)
    rw [List.mapM_cons, List.mapM_cons, h item List.mem_cons_self, hrest]

/-- Steps with changed results make up a traversal with changed results. -/
theorem mapM_eq_map {γ : Type} {f : α → Except ε β} {g : α → Except ε γ} {change : β → γ}
    {items : List α} (h : ∀ item ∈ items, g item = change <$> f item) :
    items.mapM g = List.map change <$> items.mapM f := by
  induction items with
  | nil => rfl
  | cons item rest ih =>
    have hrest : rest.mapM g = List.map change <$> rest.mapM f :=
      ih fun other hother => h other (List.mem_cons_of_mem _ hother)
    rw [List.mapM_cons, List.mapM_cons, h item List.mem_cons_self, hrest]
    simp only [bind_map_left, map_bind, map_pure, List.map_cons]

/-- Whether a traversal succeeds does not depend on the order of its steps. -/
theorem mapM_perm {f : α → Except ε β} {items others : List α} (hperm : items.Perm others)
    {results : List β} (h : items.mapM f = .ok results) :
    ∃ moved, others.mapM f = .ok moved ∧ results.Perm moved := by
  obtain ⟨moved, hmoved, hresults⟩ := List.perm_comp_forall₂ hperm.symm (mapM_eq_ok_iff.1 h)
  exact ⟨moved, mapM_eq_ok_iff.2 hmoved, hresults.symm⟩

theorem exists_mem_of_forall₂_left {R : α → β → Prop} {items : List α} {results : List β}
    (h : List.Forall₂ R items results) {item : α} (hitem : item ∈ items) :
    ∃ result ∈ results, R item result := by
  induction h with
  | nil => cases hitem
  | cons hfirst _ ih =>
    rcases List.mem_cons.1 hitem with rfl | hlater
    · exact ⟨_, List.mem_cons_self, hfirst⟩
    · obtain ⟨result, hresult, hrel⟩ := ih hlater
      exact ⟨result, List.mem_cons_of_mem _ hresult, hrel⟩

theorem exists_mem_of_forall₂_right {R : α → β → Prop} {items : List α} {results : List β}
    (h : List.Forall₂ R items results) {result : β} (hresult : result ∈ results) :
    ∃ item ∈ items, R item result :=
  exists_mem_of_forall₂_left h.flip hresult

theorem forall_mem_of_forall₂ {R : α → β → Prop} {P : β → Prop} (himp : ∀ item result,
    R item result → P result) {items : List α} {results : List β} (h : List.Forall₂ R items results) :
    ∀ result ∈ results, P result := by
  intro result hresult
  obtain ⟨item, -, hitem⟩ := exists_mem_of_forall₂_right h hresult
  exact himp item result hitem

theorem forall₂_congr_of_mem {R S : α → β → Prop} {first : List α} {second : List β}
    (h : ∀ a ∈ first, ∀ b ∈ second, R a b ↔ S a b) :
    List.Forall₂ R first second ↔ List.Forall₂ S first second := by
  induction first generalizing second with
  | nil => cases second <;> simp
  | cons a first ih =>
    cases second with
    | nil => simp
    | cons b second =>
      have hrest : ∀ a ∈ first, ∀ b ∈ second, R a b ↔ S a b :=
        fun a ha b hb => h a (List.mem_cons_of_mem _ ha) b (List.mem_cons_of_mem _ hb)
      rw [List.forall₂_cons, List.forall₂_cons, h a List.mem_cons_self b List.mem_cons_self,
        ih hrest]

theorem forall₂_imp_of_mem {R S : α → β → Prop} {first : List α} {second : List β}
    (himp : ∀ a ∈ first, ∀ b, R a b → S a b) (h : List.Forall₂ R first second) :
    List.Forall₂ S first second := by
  induction h with
  | nil => exact .nil
  | cons hitem _ ih =>
    exact .cons (himp _ List.mem_cons_self _ hitem)
      (ih fun a ha => himp a (List.mem_cons_of_mem _ ha))

theorem map_eq_map_of_forall₂ {γ : Type} {f : α → γ} {g : β → γ} {first : List α}
    {second : List β} (h : List.Forall₂ (fun a b => f a = g b) first second) :
    first.map f = second.map g := by
  rw [← List.forall₂_eq_eq_eq, List.forall₂_map_left_iff, List.forall₂_map_right_iff]
  exact h

/-- Lists that correspond to a third one item by item correspond to each other. -/
theorem forall₂_trans {γ : Type} {R : α → β → Prop} {S : β → γ → Prop} {T : α → γ → Prop}
    (hstep : ∀ a b c, R a b → S b c → T a c) {first : List α} {second : List β} {third : List γ}
    (hfirst : List.Forall₂ R first second) (hsecond : List.Forall₂ S second third) :
    List.Forall₂ T first third := by
  induction hfirst generalizing third with
  | nil =>
    cases hsecond
    exact .nil
  | cons hitem hrest ih =>
    cases hsecond with
    | cons hnext hlater => exact .cons (hstep _ _ _ hitem hnext) (ih hlater)

theorem eq_of_forall₂_of_forall₂ {R : α → β → Prop} {items : List α} {first second : List β}
    (hunique : ∀ item ∈ items, ∀ x y, R item x → R item y → x = y)
    (hfirst : List.Forall₂ R items first) (hsecond : List.Forall₂ R items second) :
    first = second := by
  induction hfirst generalizing second with
  | nil => exact (List.forall₂_nil_left_iff.1 hsecond).symm
  | cons hitem hrest ih =>
    cases hsecond with
    | cons hother hothers =>
      rw [hunique _ List.mem_cons_self _ _ hitem hother,
        ih (fun item hmem => hunique item (List.mem_cons_of_mem _ hmem)) hothers]

/-! ## Faults -/

/-- What a computation failed with, if it did. -/
def faultOf : Except ε α → Option ε
  | .error fault => some fault
  | .ok _ => none

theorem faultOf_eq_some_iff {result : Except ε α} {fault : ε} :
    faultOf result = some fault ↔ result = .error fault := by
  cases result with
  | error other => simp [faultOf]
  | ok value => simp [faultOf]

theorem faultOf_eq_none_iff {result : Except ε α} :
    faultOf result = none ↔ ∃ value, result = .ok value := by
  cases result with
  | error fault => simp [faultOf]
  | ok value => simp [faultOf]

/-- Checks that give no value differ by their faults only. -/
theorem eq_of_faultOf_eq {first second : Except ε Unit} (h : faultOf first = faultOf second) :
    first = second := by
  cases hfirst : first with
  | error fault =>
    rw [hfirst] at h
    exact (faultOf_eq_some_iff.1 h.symm).symm
  | ok _ =>
    rw [hfirst] at h
    obtain ⟨_, hsecond⟩ := faultOf_eq_none_iff.1 h.symm
    exact hsecond.symm

/-- A fault of the first step hides one of the next step. -/
theorem faultOf_bind {first : Except ε α} {next : α → Except ε β} {later : Option ε}
    (h : ∀ value, first = .ok value → faultOf (next value) = later) :
    faultOf (first >>= next) = (faultOf first).or later := by
  cases first with
  | error fault => rfl
  | ok value => exact h value rfl

/-- A step that cannot fail adds no fault. -/
theorem faultOf_bind_pure (f : α → β) (first : Except ε α) :
    faultOf (first >>= fun value => pure (f value)) = faultOf first := by
  cases first <;> rfl

theorem faultOf_map (f : α → β) (first : Except ε α) : faultOf (f <$> first) = faultOf first := by
  cases first <;> rfl

theorem faultOf_mapM (f : α → Except ε β) (items : List α) :
    faultOf (items.mapM f) = items.findSome? fun item => faultOf (f item) := by
  induction items with
  | nil => rfl
  | cons item rest ih =>
    rw [List.mapM_cons, faultOf_bind fun _ _ => faultOf_bind_pure _ _, ih, List.findSome?_cons]
    cases faultOf (f item) <;> rfl

theorem faultOf_forM (f : α → Except ε PUnit) (items : List α) :
    faultOf (items.forM f) = items.findSome? fun item => faultOf (f item) := by
  induction items with
  | nil => rfl
  | cons item rest ih =>
    refine (faultOf_bind fun _ _ => ih).trans ?_
    rw [List.findSome?_cons]
    cases faultOf (f item) <;> rfl

theorem findSome?_flatMap {γ : Type} (f : α → List β) (g : β → Option γ) (items : List α) :
    (items.flatMap f).findSome? g = items.findSome? fun item => (f item).findSome? g := by
  induction items with
  | nil => rfl
  | cons item rest ih =>
    rw [List.flatMap_cons, List.findSome?_append, ih, List.findSome?_cons]
    cases (f item).findSome? g <;> rfl

/-! ## Traversals that may give nothing -/

theorem mapM_eq_some_iff {f : α → Option β} {items : List α} {results : List β} :
    items.mapM f = some results ↔
      List.Forall₂ (fun item result => f item = some result) items results := by
  induction items generalizing results with
  | nil =>
    rw [List.forall₂_nil_left_iff]
    exact ⟨fun h => (Option.some.inj h).symm, fun h => congrArg some h.symm⟩
  | cons item rest ih =>
    rw [List.mapM_cons, List.forall₂_cons_left_iff, Option.bind_eq_bind, Option.bind_eq_some_iff]
    constructor
    · rintro ⟨result, hitem, hrest⟩
      obtain ⟨later, hlater, hresults⟩ := Option.bind_eq_some_iff.1 hrest
      exact ⟨result, later, hitem, ih.1 hlater, (Option.some.inj hresults).symm⟩
    · rintro ⟨result, later, hitem, hlater, rfl⟩
      exact ⟨result, hitem, Option.bind_eq_some_iff.2 ⟨later, ih.2 hlater, rfl⟩⟩

theorem exists_forall₂ {R : α → β → Prop} {items : List α}
    (h : ∀ item ∈ items, ∃ result, R item result) : ∃ results, List.Forall₂ R items results := by
  induction items with
  | nil => exact ⟨[], .nil⟩
  | cons item rest ih =>
    obtain ⟨⟨result, hitem⟩, hrest⟩ := List.forall_mem_cons.1 h
    obtain ⟨results, hresults⟩ := ih hrest
    exact ⟨result :: results, .cons hitem hresults⟩

section

variable {γ δ : Type} {R : α → β → Prop} {S : γ → δ → Prop}

/-- Steps with related results, taken after such steps, give nothing or related results. -/
theorem rel_bind {first : Option α} {second : Option β} {next : α → Option γ}
    {others : β → Option δ} (h : Option.Rel R first second)
    (hnext : ∀ x y, R x y → Option.Rel S (next x) (others y)) :
    Option.Rel S (first >>= next) (second >>= others) := by
  cases h with
  | none => exact .none
  | some hxy => exact hnext _ _ hxy

theorem rel_mapM {f : α → Option γ} {g : β → Option δ} {first : List α} {second : List β}
    (hitems : List.Forall₂ R first second)
    (hstep : ∀ x y, R x y → Option.Rel S (f x) (g y)) :
    Option.Rel (List.Forall₂ S) (first.mapM f) (second.mapM g) := by
  induction hitems with
  | nil => exact .some .nil
  | cons hitem _ ih =>
    rw [List.mapM_cons, List.mapM_cons]
    refine rel_bind (hstep _ _ hitem) fun result other hresult => ?_
    exact rel_bind ih fun results others hresults => .some (.cons hresult hresults)

end

end GraphQLIR
