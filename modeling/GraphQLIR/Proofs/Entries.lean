import GraphQLIR.OrderedMap
import Mathlib.Data.List.Induction
import Mathlib.Data.List.Perm.Subperm
/-!
# Entries made from pairs

When pairs are inserted one after the other, every key stays where it came first and ends up with
the value that it came with last. Entries with distinct keys are determined by the order of their
keys together with looking up, and compared without order by looking up alone.
-/

namespace GraphQLIR

/-! ## Related results of looking up -/

section

variable {α β γ : Type} {R S : α → β → Prop} {first : Option α} {second : Option β}

/-- Either nothing on both sides, or something that is related. -/
theorem rel_iff : Option.Rel R first second ↔
    (∀ x, first = some x → ∃ y, second = some y ∧ R x y) ∧ (first = none → second = none) := by
  cases first <;> cases second <;> simp

theorem rel_imp (himp : ∀ x, first = some x → ∀ y, R x y → S x y)
    (h : Option.Rel R first second) : Option.Rel S first second := by
  cases h with
  | none => exact .none
  | some hxy => exact .some (himp _ rfl _ hxy)

theorem rel_congr (hiff : ∀ x, first = some x → ∀ y, second = some y → (R x y ↔ S x y)) :
    Option.Rel R first second ↔ Option.Rel S first second := by
  cases first <;> cases second <;> simp_all

theorem rel_swap (h : Option.Rel (fun x y => R y x) second first) : Option.Rel R first second := by
  cases h with
  | none => exact .none
  | some hyx => exact .some hyx

theorem rel_map {δ : Type} {T : γ → δ → Prop} {f : α → γ} {g : β → δ}
    (h : Option.Rel R first second) (hmap : ∀ x y, R x y → T (f x) (g y)) :
    Option.Rel T (first.map f) (second.map g) := by
  cases h with
  | none => exact .none
  | some hxy => exact .some (hmap _ _ hxy)

theorem rel_trans {T : β → γ → Prop} {U : α → γ → Prop} {third : Option γ}
    (hstep : ∀ x y z, R x y → T y z → U x z) (hfirst : Option.Rel R first second)
    (hsecond : Option.Rel T second third) : Option.Rel U first third := by
  cases hfirst with
  | none =>
    cases hsecond
    exact .none
  | some hxy =>
    cases hsecond with
    | some hyz => exact .some (hstep _ _ _ hxy hyz)

end

namespace Entries

variable {α β : Type}

theorem mem_keys_iff {entries : Entries α} {key : String} :
    key ∈ entries.keys ↔ ∃ value, entries.get? key = some value := by
  rw [← Option.ne_none_iff_exists', ne_eq, get?_eq_none_iff, not_not]

/-! ## Last values -/

/-- The last pair with this key has this value. -/
def LastOf (pairs : List (String × α)) (key : String) (value : α) : Prop :=
  ∃ earlier later, pairs = earlier ++ (key, value) :: later ∧ key ∉ keys later

@[simp] theorem not_lastOf_nil (key : String) (value : α) : ¬ LastOf [] key value := by
  rintro ⟨earlier, later, hpairs, -⟩
  cases earlier <;> cases hpairs

theorem lastOf_cons_iff (pair : String × α) (rest : List (String × α)) (key : String) (value : α) :
    LastOf (pair :: rest) key value ↔
      LastOf rest key value ∨ pair = (key, value) ∧ key ∉ keys rest := by
  constructor
  · rintro ⟨earlier, later, hpairs, hlater⟩
    cases earlier with
    | nil =>
      obtain ⟨rfl, rfl⟩ := List.cons.inj hpairs
      exact Or.inr ⟨rfl, hlater⟩
    | cons first earlier => exact Or.inl ⟨earlier, later, (List.cons.inj hpairs).2, hlater⟩
  · rintro (⟨earlier, later, rfl, hlater⟩ | ⟨rfl, hrest⟩)
    · exact ⟨pair :: earlier, later, rfl, hlater⟩
    · exact ⟨[], rest, rfl, hrest⟩

section

variable {pairs : List (String × α)} {key : String} {value : α}

theorem LastOf.mem (h : LastOf pairs key value) : (key, value) ∈ pairs := by
  obtain ⟨earlier, later, rfl, -⟩ := h
  exact List.mem_append_cons_self

theorem LastOf.mem_keys (h : LastOf pairs key value) : key ∈ keys pairs :=
  List.mem_map_of_mem h.mem

theorem exists_lastOf_iff : (∃ value, LastOf pairs key value) ↔ key ∈ keys pairs := by
  refine ⟨fun ⟨_, h⟩ => h.mem_keys, fun hkey => ?_⟩
  induction pairs with
  | nil => cases hkey
  | cons pair rest ih =>
    simp only [lastOf_cons_iff]
    by_cases hrest : key ∈ keys rest
    · obtain ⟨value, hvalue⟩ := ih hrest
      exact ⟨value, Or.inl hvalue⟩
    · have hpair : key = pair.1 := by simpa [hrest] using hkey
      exact ⟨pair.2, Or.inr ⟨by rw [hpair], hrest⟩⟩

/-- Pairs with other keys make no difference. -/
theorem lastOf_filter_iff :
    LastOf (pairs.filter fun pair => pair.1 = key) key value ↔ LastOf pairs key value := by
  induction pairs with
  | nil => rfl
  | cons pair rest ih =>
    have hkeys : key ∈ keys (rest.filter fun pair => pair.1 = key) ↔ key ∈ keys rest := by
      simp [keys]
    by_cases hpair : pair.1 = key
    · rw [List.filter_cons_of_pos (by simpa using hpair), lastOf_cons_iff, lastOf_cons_iff, ih,
        hkeys]
    · have hne : pair ≠ (key, value) := fun h => hpair (congrArg Prod.fst h)
      rw [List.filter_cons_of_neg (by simpa using hpair), lastOf_cons_iff, ih]
      simp [hne]

end

/-! ## Insertion in turn -/

theorem get?_foldl_insert_eq_some_iff (pairs : List (String × α)) (entries : Entries α)
    (key : String) (value : α) :
    (pairs.foldl (fun entries pair => insert entries pair.1 pair.2) entries).get? key = some value ↔
      LastOf pairs key value ∨ key ∉ keys pairs ∧ entries.get? key = some value := by
  induction pairs generalizing entries with
  | nil => simp
  | cons pair rest ih =>
    rw [List.foldl_cons, ih, get?_insert, lastOf_cons_iff, keys_cons, List.mem_cons, not_or]
    by_cases hkey : key = pair.1
    · subst hkey
      simp [Prod.ext_iff, eq_comm, and_comm]
    · have hpair : pair ≠ (key, value) := fun h => hkey (congrArg Prod.fst h).symm
      simp [hkey, hpair]

/-- The last value counts. -/
theorem get?_ofList_eq_some_iff {pairs : List (String × α)} {key : String} {value : α} :
    (ofList pairs).get? key = some value ↔ LastOf pairs key value := by
  rw [ofList, get?_foldl_insert_eq_some_iff]
  simp [get?]

/-- The first place counts. -/
theorem keys_ofList (pairs : List (String × α)) :
    (ofList pairs).keys = (keys pairs).eraseDups := by
  induction pairs using List.reverseRecOn with
  | nil => rfl
  | append_singleton pairs pair ih =>
    have hinsert : ofList (pairs ++ [pair]) = (ofList pairs).insert pair.1 pair.2 :=
      List.foldl_append
    have hkeys : keys (pairs ++ [pair]) = keys pairs ++ [pair.1] := List.map_append
    rw [hinsert, keys_insert, hkeys, List.eraseDups_append, ih]
    by_cases hmem : pair.1 ∈ keys pairs
    · simp [List.removeAll, hmem]
    · simp [List.removeAll, hmem, List.eraseDups_cons]

theorem insert_of_notMem {entries : Entries α} {key : String} (hkey : key ∉ entries.keys)
    (value : α) : entries.insert key value = entries ++ [(key, value)] := by
  induction entries with
  | nil => rfl
  | cons entry rest ih =>
    rw [keys_cons, List.mem_cons, not_or] at hkey
    rw [insert, if_neg (Ne.symm hkey.1), ih hkey.2, List.cons_append]

/-- Nothing is replaced among distinct keys. -/
theorem ofList_of_nodup {pairs : List (String × α)} (hnodup : (keys pairs).Nodup) :
    ofList pairs = pairs := by
  induction pairs using List.reverseRecOn with
  | nil => rfl
  | append_singleton pairs pair ih =>
    have hinsert : ofList (pairs ++ [pair]) = (ofList pairs).insert pair.1 pair.2 :=
      List.foldl_append
    have hkeys : keys (pairs ++ [pair]) = keys pairs ++ [pair.1] := List.map_append
    rw [hkeys, List.nodup_append] at hnodup
    have hpair : pair.1 ∉ keys pairs := fun hmem =>
      hnodup.2.2 pair.1 hmem pair.1 (List.mem_singleton_self _) rfl
    rw [hinsert, ih hnodup.1, insert_of_notMem hpair]

theorem mem_of_mem_ofList {pairs : List (String × α)} {pair : String × α}
    (h : pair ∈ ofList pairs) : pair ∈ pairs :=
  (get?_ofList_eq_some_iff.1 (get?_eq_some_of_mem (nodup_keys_ofList pairs) h)).mem

theorem get?_ofList_eq_none_iff {pairs : List (String × α)} {key : String} :
    (ofList pairs).get? key = none ↔ key ∉ keys pairs := by
  rw [get?_eq_none_iff, keys_ofList, List.mem_eraseDups]

theorem get?_ofList_filter (pairs : List (String × α)) (key : String) :
    (ofList (pairs.filter fun pair => pair.1 = key)).get? key = (ofList pairs).get? key := by
  ext value
  rw [get?_ofList_eq_some_iff, get?_ofList_eq_some_iff, lastOf_filter_iff]

/-! ## Indexes -/

theorem filterMap_get?_keys {entries : Entries α} (hnodup : entries.keys.Nodup) :
    (entries.keys.filterMap fun key => (entries.get? key).map (Prod.mk key)) = entries := by
  rw [keys, List.filterMap_map]
  calc
    _ = entries.filterMap some := by
      apply List.filterMap_congr
      intro entry hentry
      rw [Function.comp_apply, get?_eq_some_of_mem hnodup hentry, Option.map_some]
    _ = entries := List.filterMap_some

/-- The order of the keys and the values that are found tell entries apart. -/
theorem ext_of_get? {first second : Entries α} (hnodup : first.keys.Nodup)
    (hkeys : first.keys = second.keys) (hget : ∀ key, first.get? key = second.get? key) :
    first = second := by
  calc first
    _ = first.keys.filterMap fun key => (first.get? key).map (Prod.mk key) :=
      (filterMap_get?_keys hnodup).symm
    _ = second.keys.filterMap fun key => (second.get? key).map (Prod.mk key) := by
      simp only [hkeys, hget]
    _ = second := filterMap_get?_keys (hkeys ▸ hnodup)

/-- The entries have the keys of the pairs in the order in which they come first, each with what
belongs to the last value of its key. -/
structure Indexes (R : α → β → Prop) (pairs : List (String × α)) (entries : Entries β) : Prop where
  keys_eq : entries.keys = (keys pairs).eraseDups
  value : ∀ key value result, LastOf pairs key value → entries.get? key = some result →
    R value result

namespace Indexes

variable {R : α → β → Prop} {pairs : List (String × α)} {entries : Entries β}

theorem nodup_keys (h : Indexes R pairs entries) : entries.keys.Nodup := by
  rw [h.keys_eq, ← keys_ofList]
  exact nodup_keys_ofList pairs

theorem exists_get?_iff (h : Indexes R pairs entries) {key : String} :
    (∃ result, entries.get? key = some result) ↔ key ∈ keys pairs := by
  rw [← mem_keys_iff, h.keys_eq, List.mem_eraseDups]

/-- If one thing only belongs to each last value, there is one index only. -/
theorem unique (hunique : ∀ key value, LastOf pairs key value →
      ∀ x y, R value x → R value y → x = y) {first second : Entries β}
    (hfirst : Indexes R pairs first) (hsecond : Indexes R pairs second) : first = second := by
  refine ext_of_get? hfirst.nodup_keys (hfirst.keys_eq.trans hsecond.keys_eq.symm) fun key => ?_
  by_cases hkey : key ∈ keys pairs
  · obtain ⟨value, hvalue⟩ := exists_lastOf_iff.2 hkey
    obtain ⟨x, hx⟩ := hfirst.exists_get?_iff.2 hkey
    obtain ⟨y, hy⟩ := hsecond.exists_get?_iff.2 hkey
    have hsame : x = y := hunique key value hvalue x y (hfirst.value key value x hvalue hx)
      (hsecond.value key value y hvalue hy)
    rw [hx, hy, hsame]
  · have hnone {entries : Entries β} (h : Indexes R pairs entries) : entries.get? key = none := by
      rw [get?_eq_none_iff, mem_keys_iff, h.exists_get?_iff]
      exact hkey
    rw [hnone hfirst, hnone hsecond]

end Indexes

/-! ### Changed values -/

theorem keys_map_snd (f : α → β) (pairs : List (String × α)) :
    keys (pairs.map fun pair => (pair.1, f pair.2)) = keys pairs := by
  rw [keys, List.map_map]
  rfl

theorem LastOf.map (f : α → β) {pairs : List (String × α)} {key : String} {value : α}
    (h : LastOf pairs key value) :
    LastOf (pairs.map fun pair => (pair.1, f pair.2)) key (f value) := by
  obtain ⟨earlier, later, rfl, hlater⟩ := h
  refine ⟨_, _, List.map_append, ?_⟩
  rwa [keys_map_snd]

theorem get?_ofList_map (f : α → β) (pairs : List (String × α)) (key : String) :
    (ofList (pairs.map fun pair => (pair.1, f pair.2))).get? key =
      ((ofList pairs).get? key).map f := by
  cases hget : (ofList pairs).get? key with
  | none =>
    rw [get?_ofList_eq_none_iff] at hget
    rw [Option.map_none, get?_ofList_eq_none_iff, keys_map_snd]
    exact hget
  | some value =>
    rw [get?_ofList_eq_some_iff] at hget
    exact get?_ofList_eq_some_iff.2 (hget.map f)

/-- Pairs inserted one after the other are indexed. -/
theorem indexes_ofList_map {R : α → β → Prop} {f : α → β} {pairs : List (String × α)}
    (h : ∀ pair ∈ pairs, R pair.2 (f pair.2)) :
    Indexes R pairs (ofList (pairs.map fun pair => (pair.1, f pair.2))) := by
  constructor
  · rw [keys_ofList, keys_map_snd]
  · intro key value result hlast hget
    rw [get?_ofList_map, get?_ofList_eq_some_iff.2 hlast] at hget
    rw [← Option.some.inj hget]
    exact h (key, value) hlast.mem

/-! ### Changed entry by entry -/

section

variable {R : α → β → Prop} {first : Entries α} {second : Entries β}

theorem keys_eq_of_forall₂ (h : List.Forall₂ (fun x y => x.1 = y.1 ∧ R x.2 y.2) first second) :
    first.keys = second.keys := by
  induction h with
  | nil => rfl
  | cons hentry _ ih => rw [keys_cons, keys_cons, hentry.1, ih]

theorem rel_get?_of_forall₂ (h : List.Forall₂ (fun x y => x.1 = y.1 ∧ R x.2 y.2) first second)
    (key : String) : Option.Rel R (first.get? key) (second.get? key) := by
  induction h with
  | nil => exact .none
  | @cons x y first second hentry _ ih =>
    rw [get?, get?, ← hentry.1]
    split
    · exact .some hentry.2
    · exact ih

end

/-! ## Comparison without order -/

theorem same_iff_found {eq : α → α → Bool} {first second : Entries α}
    (hfirst : first.keys.Nodup) :
    same eq first second = true ↔ first.length = second.length ∧
      ∀ key x, first.get? key = some x → ∃ y, second.get? key = some y ∧ eq x y = true := by
  rw [same, Bool.and_eq_true, beq_iff_eq, List.all_eq_true]
  refine and_congr_right fun _ => ⟨fun hall key x hx => ?_, fun hfound entry hentry => ?_⟩
  · have hmatch := hall (key, x) (mem_of_get?_eq_some hx)
    cases hy : second.get? key with
    | none => simp [hy] at hmatch
    | some y => exact ⟨y, rfl, by simpa [hy] using hmatch⟩
  · obtain ⟨y, hy, heq⟩ := hfound entry.1 entry.2 (get?_eq_some_of_mem hfirst hentry)
    simpa [hy] using heq

theorem keys_perm_of_found {R : α → β → Prop} {first : Entries α} {second : Entries β}
    (hfirst : first.keys.Nodup) (hlength : first.length = second.length)
    (hfound : ∀ key x, first.get? key = some x → ∃ y, second.get? key = some y ∧ R x y) :
    first.keys.Perm second.keys := by
  have hsubset : first.keys ⊆ second.keys := by
    intro key hkey
    obtain ⟨x, hx⟩ := mem_keys_iff.1 hkey
    obtain ⟨y, hy, -⟩ := hfound key x hx
    exact mem_keys_iff.2 ⟨y, hy⟩
  -- as many distinct keys on both sides, so none is left over in the second
  exact (List.subperm_of_subset hfirst hsubset).perm_of_length_le (by simp [keys, hlength])

/-- Entries are equal without order just if looking up any key gives equal values. -/
theorem same_iff_get? {eq : α → α → Bool} {first second : Entries α} (hfirst : first.keys.Nodup)
    (hsecond : second.keys.Nodup) :
    same eq first second = true ↔
      ∀ key, Option.Rel (fun x y => eq x y = true) (first.get? key) (second.get? key) := by
  rw [same_iff_found hfirst]
  constructor
  · rintro ⟨hlength, hfound⟩ key
    have hperm := keys_perm_of_found hfirst hlength hfound
    refine rel_iff.2 ⟨hfound key, fun hx => ?_⟩
    rwa [get?_eq_none_iff, hperm.mem_iff, ← get?_eq_none_iff] at hx
  · intro h
    have hmem : ∀ key, key ∈ first.keys ↔ key ∈ second.keys := by
      intro key
      rw [← not_iff_not, ← get?_eq_none_iff, ← get?_eq_none_iff]
      exact ⟨(rel_iff.1 (h key)).2, fun hy => Option.eq_none_iff_forall_ne_some.2 fun x hx => by
        obtain ⟨y, hy', -⟩ := (rel_iff.1 (h key)).1 x hx
        rw [hy] at hy'
        cases hy'⟩
    have hperm : first.keys.Perm second.keys := (List.perm_ext_iff_of_nodup hfirst hsecond).2 hmem
    exact ⟨by simpa [keys] using hperm.length_eq, fun key => (rel_iff.1 (h key)).1⟩

/-- For every key, the last values are related, or the key is on neither side. -/
def SameLast (R : α → α → Prop) (first second : List (String × α)) : Prop :=
  ∀ key, key ∉ keys first ∧ key ∉ keys second ∨
    ∃ x y, LastOf first key x ∧ LastOf second key y ∧ R x y

theorem sameLast_iff_get? {R : α → α → Prop} {first second : List (String × α)} :
    SameLast R first second ↔
      ∀ key, Option.Rel R ((ofList first).get? key) ((ofList second).get? key) := by
  refine forall_congr' fun key => ?_
  constructor
  · rintro (⟨hfirst, hsecond⟩ | ⟨x, y, hx, hy, hrel⟩)
    · rw [get?_ofList_eq_none_iff.2 hfirst, get?_ofList_eq_none_iff.2 hsecond]
      exact .none
    · rw [get?_ofList_eq_some_iff.2 hx, get?_ofList_eq_some_iff.2 hy]
      exact .some hrel
  · intro h
    cases hx : (ofList first).get? key with
    | none =>
      have hy := (rel_iff.1 h).2 hx
      exact Or.inl ⟨get?_ofList_eq_none_iff.1 hx, get?_ofList_eq_none_iff.1 hy⟩
    | some x =>
      obtain ⟨y, hy, hrel⟩ := (rel_iff.1 h).1 x hx
      exact Or.inr ⟨x, y, get?_ofList_eq_some_iff.1 hx, get?_ofList_eq_some_iff.1 hy, hrel⟩

namespace SameLast

variable {R : α → α → Prop} {first second third : List (String × α)}

theorem refl (hrefl : ∀ x, R x x) (pairs : List (String × α)) : SameLast R pairs pairs := by
  intro key
  by_cases hkey : key ∈ keys pairs
  · obtain ⟨x, hx⟩ := exists_lastOf_iff.2 hkey
    exact Or.inr ⟨x, x, hx, hx, hrefl x⟩
  · exact Or.inl ⟨hkey, hkey⟩

theorem symm (hsymm : ∀ x y, R x y → R y x) (h : SameLast R first second) :
    SameLast R second first := by
  rw [sameLast_iff_get?] at h ⊢
  exact fun key => rel_swap (rel_imp (fun x _ y => hsymm x y) (h key))

theorem trans (htrans : ∀ x y z, R x y → R y z → R x z) (hfirst : SameLast R first second)
    (hsecond : SameLast R second third) : SameLast R first third := by
  rw [sameLast_iff_get?] at hfirst hsecond ⊢
  exact fun key => rel_trans htrans (hfirst key) (hsecond key)

/-- It is enough that the pairs of each key are the same ones in the same order. -/
theorem of_filter_eq (hrefl : ∀ x, R x x)
    (h : ∀ key, (first.filter fun pair => pair.1 = key) = second.filter fun pair => pair.1 = key) :
    SameLast R first second := by
  rw [sameLast_iff_get?]
  intro key
  rw [← get?_ofList_filter first, h key, get?_ofList_filter second]
  exact sameLast_iff_get?.1 (refl hrefl second) key

end SameLast

/-- Of what was inserted only the last value of each key is compared. -/
theorem same_ofList_map_iff {eq : β → β → Bool} {f : α → β} {R : α → α → Prop}
    (h : ∀ x y, eq (f x) (f y) = true ↔ R x y) (first second : List (String × α)) :
    same eq (ofList (first.map fun pair => (pair.1, f pair.2)))
        (ofList (second.map fun pair => (pair.1, f pair.2))) = true ↔
      SameLast R first second := by
  rw [same_iff_get? (nodup_keys_ofList _) (nodup_keys_ofList _), sameLast_iff_get?]
  refine forall_congr' fun key => ?_
  rw [get?_ofList_map, get?_ofList_map]
  cases (ofList first).get? key <;> cases (ofList second).get? key <;> simp [h]

end Entries

theorem OrderedMap.isEmpty_eq_of_beq {α : Type} [BEq α] {a b : OrderedMap α}
    (h : (a == b) = true) : a.isEmpty = b.isEmpty := by
  have hlength : a.entries.length = b.entries.length := by
    have hboth := (Bool.and_eq_true_iff.1 (show Entries.same _ _ _ = true from h)).1
    simpa using hboth
  rw [isEmpty, isEmpty, Bool.eq_iff_iff, List.isEmpty_iff_length_eq_zero,
    List.isEmpty_iff_length_eq_zero, hlength]

theorem OrderedMap.ofList_entries {α : Type} (map : OrderedMap α) : ofList map.entries = map :=
  ext_entries (Entries.ofList_of_nodup map.nodup)

end GraphQLIR
