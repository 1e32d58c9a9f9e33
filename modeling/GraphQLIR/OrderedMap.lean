/-!
# Insertion-ordered maps

Entries are kept in the order in which their keys were first inserted. Inserting a known key
replaces its value and leaves it where it is, so the order is that of first insertions and the
value that of the last one. `OrderedMap` adds that the keys are distinct.
-/

namespace GraphQLIR

universe u v

/-- Keyed values in insertion order. -/
abbrev Entries (α : Type u) := List (String × α)

namespace Entries

variable {α : Type u}

def keys (entries : Entries α) : List String :=
  entries.map Prod.fst

/-- The value of the first entry with this key. -/
def get? : Entries α → String → Option α
  | [], _ => none
  | (k, v) :: rest, key => if k = key then some v else get? rest key

/-- A known key keeps its place and takes the new value, a new key goes last. -/
def insert : Entries α → String → α → Entries α
  | [], key, value => [(key, value)]
  | (k, v) :: rest, key, value =>
    if k = key then (key, value) :: rest else (k, v) :: insert rest key value

/-- Inserts the pairs one after the other. -/
def ofList (pairs : List (String × α)) : Entries α :=
  pairs.foldl (fun entries pair => entries.insert pair.1 pair.2) []

/-- Equality that ignores the order of the entries: equally many, and each of `a` found in `b`. -/
def same (eq : α → α → Bool) (a b : Entries α) : Bool :=
  a.length == b.length &&
    a.all fun (key, value) =>
      match get? b key with
      | some other => eq value other
      | none => false

@[simp] theorem keys_nil : keys ([] : Entries α) = [] := rfl

@[simp] theorem keys_cons (entry : String × α) (rest : Entries α) :
    keys (entry :: rest) = entry.1 :: keys rest := rfl

theorem get?_eq_none_iff (entries : Entries α) (key : String) :
    entries.get? key = none ↔ key ∉ entries.keys := by
  induction entries with
  | nil => simp [get?]
  | cons entry rest ih =>
    by_cases h : entry.1 = key
    · simp [get?, h]
    · simp [get?, h, ih, Ne.symm h]

theorem mem_of_get?_eq_some {entries : Entries α} {key : String} {value : α}
    (h : entries.get? key = some value) : (key, value) ∈ entries := by
  induction entries with
  | nil => cases h
  | cons entry rest ih =>
    by_cases hkey : entry.1 = key
    · have hvalue : entry.2 = value := by simpa [get?, hkey] using h
      rw [← hkey, ← hvalue]
      exact List.mem_cons_self
    · exact List.mem_cons_of_mem _ (ih (by simpa [get?, hkey] using h))

theorem get?_eq_some_of_mem {entries : Entries α} (hnodup : entries.keys.Nodup) {key : String}
    {value : α} (h : (key, value) ∈ entries) : entries.get? key = some value := by
  induction entries with
  | nil => cases h
  | cons entry rest ih =>
    rw [keys_cons, List.nodup_cons] at hnodup
    rcases List.mem_cons.1 h with rfl | hrest
    · simp [get?]
    · have hkey : entry.1 ≠ key := fun heq => hnodup.1 (heq ▸ List.mem_map_of_mem hrest)
      simpa [get?, hkey] using ih hnodup.2 hrest

theorem get?_map {β : Type v} (f : α → β) (entries : Entries α) (key : String) :
    get? (entries.map fun (key, value) => (key, f value)) key = (entries.get? key).map f := by
  induction entries with
  | nil => rfl
  | cons entry rest ih =>
    by_cases h : entry.1 = key
    · simp [get?, h]
    · simpa [get?, h] using ih

theorem get?_append (first second : Entries α) (key : String) :
    get? (first ++ second) key = (first.get? key).or (second.get? key) := by
  induction first with
  | nil => rfl
  | cons entry rest ih =>
    by_cases hkey : entry.1 = key
    · simp [get?, hkey]
    · simpa [get?, hkey] using ih

/-- Only a new key adds to the keys, and it goes last. -/
theorem keys_insert (entries : Entries α) (key : String) (value : α) :
    (entries.insert key value).keys =
      if key ∈ entries.keys then entries.keys else entries.keys ++ [key] := by
  induction entries with
  | nil => simp [insert, keys]
  | cons entry rest ih =>
    by_cases h : entry.1 = key
    · simp [insert, h]
    · by_cases hk : key ∈ keys rest <;> simp [insert, h, ih, hk, Ne.symm h]

theorem get?_insert (entries : Entries α) (key other : String) (value : α) :
    (entries.insert key value).get? other =
      if other = key then some value else entries.get? other := by
  induction entries with
  | nil => simp [insert, get?, eq_comm]
  | cons entry rest ih =>
    by_cases h : entry.1 = key
    · by_cases ho : other = key
      · simp [insert, get?, h, ho]
      · simp [insert, get?, h, ho, Ne.symm ho]
    · by_cases ho : other = entry.1
      · subst ho
        simp [insert, get?, h]
      · simp [insert, get?, h, Ne.symm ho, ih]

/-- Inserting changes no entry of another key and moves none. -/
theorem filter_key_ne_insert (entries : Entries α) (key : String) (value : α) :
    (entries.insert key value).filter (fun entry => entry.1 != key) =
      entries.filter fun entry => entry.1 != key := by
  induction entries with
  | nil => simp [insert]
  | cons entry rest ih =>
    by_cases h : entry.1 = key
    · simp [insert, h]
    · simp [insert, h, ih]

/-- Where a key stands does not matter to looking it up. -/
theorem get?_eq_of_perm {first second : Entries α} (hperm : first.Perm second)
    (hnodup : first.keys.Nodup) (key : String) : first.get? key = second.get? key := by
  have hkeys : first.keys.Perm second.keys := hperm.map Prod.fst
  cases hget : first.get? key with
  | none =>
    rw [get?_eq_none_iff, hkeys.mem_iff, ← get?_eq_none_iff] at hget
    exact hget.symm
  | some value =>
    have hmem : (key, value) ∈ second := hperm.mem_iff.1 (mem_of_get?_eq_some hget)
    exact (get?_eq_some_of_mem (hkeys.nodup hnodup) hmem).symm

/-- A member is found under its key among others, in whatever order, that have other keys. -/
theorem get?_of_perm_append {entries more others : Entries α} (hnodup : others.keys.Nodup)
    (hperm : others.Perm (entries ++ more)) {key : String} (hkey : key ∉ more.keys) :
    others.get? key = entries.get? key := by
  rw [get?_eq_of_perm hperm hnodup, get?_append, (get?_eq_none_iff more key).2 hkey, Option.or_none]

theorem nodup_keys_insert {entries : Entries α} (h : entries.keys.Nodup) (key : String)
    (value : α) : (entries.insert key value).keys.Nodup := by
  rw [keys_insert]
  by_cases hk : key ∈ entries.keys
  · simpa [hk] using h
  · simp only [hk, ↓reduceIte, List.nodup_append]
    refine ⟨h, by simp, fun a ha b hb => ?_⟩
    rw [List.mem_singleton.1 hb]
    exact fun he => hk (he ▸ ha)

theorem nodup_keys_foldl_insert (pairs : List (String × α)) {entries : Entries α}
    (h : entries.keys.Nodup) :
    (pairs.foldl (fun entries pair => insert entries pair.1 pair.2) entries).keys.Nodup := by
  induction pairs generalizing entries with
  | nil => exact h
  | cons pair rest ih => exact ih (nodup_keys_insert h pair.1 pair.2)

theorem nodup_keys_ofList (pairs : List (String × α)) : (ofList pairs).keys.Nodup :=
  nodup_keys_foldl_insert pairs List.nodup_nil

end Entries

/-- Keyed values in insertion order, each key at most once. -/
structure OrderedMap (α : Type u) where
  entries : Entries α
  nodup : entries.keys.Nodup

namespace OrderedMap

variable {α : Type u} {β : Type v}

def empty : OrderedMap α := ⟨[], List.nodup_nil⟩

instance : EmptyCollection (OrderedMap α) := ⟨empty⟩

instance : Inhabited (OrderedMap α) := ⟨empty⟩

def insert (map : OrderedMap α) (key : String) (value : α) : OrderedMap α :=
  ⟨map.entries.insert key value, Entries.nodup_keys_insert map.nodup key value⟩

/-- Inserts the pairs one after the other. -/
def ofList (pairs : List (String × α)) : OrderedMap α :=
  ⟨Entries.ofList pairs, Entries.nodup_keys_ofList pairs⟩

def get? (map : OrderedMap α) (key : String) : Option α :=
  Entries.get? map.entries key

def contains (map : OrderedMap α) (key : String) : Bool :=
  (map.get? key).isSome

def keys (map : OrderedMap α) : List String :=
  Entries.keys map.entries

def size (map : OrderedMap α) : Nat :=
  map.entries.length

def isEmpty (map : OrderedMap α) : Bool :=
  map.entries.isEmpty

/-- Changes every value and no key. -/
def map (f : α → β) (m : OrderedMap α) : OrderedMap β :=
  ⟨m.entries.map fun (key, value) => (key, f value), by
    have h : Entries.keys (m.entries.map fun (key, value) => (key, f value)) =
        Entries.keys m.entries := by simp [Entries.keys]
    exact h ▸ m.nodup⟩

theorem get?_map (f : α → β) (m : OrderedMap α) (key : String) :
    (m.map f).get? key = (m.get? key).map f :=
  Entries.get?_map f m.entries key

/-- Maps are compared without order. -/
instance [BEq α] : BEq (OrderedMap α) :=
  ⟨fun a b => Entries.same (· == ·) a.entries b.entries⟩

theorem ext_entries {a b : OrderedMap α} (h : a.entries = b.entries) : a = b := by
  cases a
  cases b
  cases h
  rfl

end OrderedMap

/-- Distinct names in the order of their first mention. -/
abbrev NameSet := OrderedMap Unit

namespace NameSet

def ofNames (names : List String) : NameSet :=
  OrderedMap.ofList (names.map fun name => (name, ()))

def names (set : NameSet) : List String :=
  OrderedMap.keys set

end NameSet

end GraphQLIR
