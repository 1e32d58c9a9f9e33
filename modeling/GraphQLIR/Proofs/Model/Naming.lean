import GraphQLIR.Model.Name
import Mathlib.Data.List.Nodup
/-!
# Fresh model names

A numbered name determines its number, and differs from the base name. Beside a base name that is
taken, a list of names in use therefore cannot hold as many numbered names as it has entries, so
the search for a free one succeeds. What names are taken for a list of base names, one after the
other, is settled by the names in use.
-/

namespace GraphQLIR.ModelName

theorem numbered_eq_append (base : String) (number : Nat) :
    numbered base number = base ++ ("_" ++ toString number) := by
  unfold numbered
  exact String.append_assoc

theorem toString_nat_injective {a b : Nat} (h : toString a = toString b) : a = b := by
  have hdigits : Nat.toDigits 10 a = Nat.toDigits 10 b := by
    simpa only [Nat.toString_eq_repr, Nat.toList_repr] using congrArg String.toList h
  rw [← Nat.ofDigitChars_ten_toDigits (n := a), hdigits, Nat.ofDigitChars_ten_toDigits]

theorem numbered_injective (base : String) : Function.Injective (numbered base) := by
  intro a b h
  simp only [numbered_eq_append, String.append_right_inj] at h
  exact toString_nat_injective h

theorem numbered_ne_base (base : String) (number : Nat) : numbered base number ≠ base := by
  intro h
  have hlength := congrArg String.length h
  rw [numbered_eq_append, String.length_append, String.length_append] at hlength
  have hunderscore : "_".length = 1 := by decide
  omega

/-- The names to try for a base name, which is the first of them. -/
def candidate (base : String) : Nat → String
  | 0 => base
  | number + 1 => numbered base (number + 1)

theorem candidate_injective (base : String) : Function.Injective (candidate base) := by
  intro a b h
  cases a with
  | zero =>
    cases b with
    | zero => rfl
    | succ b => exact absurd h.symm (numbered_ne_base base (b + 1))
  | succ a =>
    cases b with
    | zero => exact absurd h (numbered_ne_base base (a + 1))
    | succ b => exact numbered_injective base h

/-- Candidates are distinct, so no more of them are in use than there are names in use. -/
theorem le_length_of_taken {used : List String} {base : String} {number : Nat}
    (htaken : ∀ earlier < number, candidate base earlier ∈ used) : number ≤ used.length := by
  have hnodup : ((List.range number).map (candidate base)).Nodup :=
    List.nodup_range.map (candidate_injective base)
  have hsubset : (List.range number).map (candidate base) ⊆ used := by
    intro name hname
    obtain ⟨earlier, hearlier, rfl⟩ := List.mem_map.1 hname
    exact htaken earlier (List.mem_range.1 hearlier)
  have hlength := hnodup.length_le_of_subset hsubset
  rwa [List.length_map, List.length_range] at hlength

/-- The base name and the numbered names up to the number of names in use are one name too many
for all of them to be in use. -/
theorem exists_free_number {used : List String} {base : String} (hbase : base ∈ used) :
    ∃ i < used.length, numbered base (i + 1) ∉ used := by
  by_contra hall
  push Not at hall
  have htaken : ∀ earlier < used.length + 1, candidate base earlier ∈ used := by
    intro earlier hearlier
    cases earlier with
    | zero => exact hbase
    | succ i => exact hall i (by omega)
  have hlength := le_length_of_taken htaken
  omega

/-- The name taken for a base name beside those in use: the base name itself if it is free, and
otherwise the numbered one with the least free number. -/
inductive IsFirstFree (used : List String) (base : String) : String → Prop
  | base (hbase : base ∉ used) : IsFirstFree used base base
  | numbered {number : Nat} (hbase : base ∈ used) (hpos : 1 ≤ number)
    (hfree : numbered base number ∉ used)
    (hleast : ∀ smaller, 1 ≤ smaller → smaller < number → numbered base smaller ∈ used) :
    IsFirstFree used base (numbered base number)

theorem isFirstFree_candidate {used : List String} {base : String} {number : Nat}
    (hfree : candidate base number ∉ used)
    (htaken : ∀ earlier < number, candidate base earlier ∈ used) :
    IsFirstFree used base (candidate base number) := by
  cases number with
  | zero => exact .base hfree
  | succ number =>
    apply IsFirstFree.numbered (htaken 0 number.succ_pos) number.succ_pos hfree
    intro smaller hpos hsmaller
    obtain ⟨previous, rfl⟩ := Nat.exists_eq_add_of_le' hpos
    exact htaken (previous + 1) hsmaller

theorem isFirstFree_fresh (used : List String) (base : String) :
    IsFirstFree used base (fresh used base) := by
  unfold fresh
  by_cases hbase : base ∈ used
  · rw [if_pos (List.contains_iff_mem.2 hbase)]
    cases hfind : (List.range used.length).find? fun i => !used.contains (numbered base (i + 1)) with
    | none =>
      obtain ⟨i, hi, hfree⟩ := exists_free_number hbase
      have htaken := List.find?_eq_none.1 hfind i (List.mem_range.2 hi)
      simp [hfree] at htaken
    | some i =>
      obtain ⟨hfree, -, hearlier⟩ := List.find?_range_eq_some.1 hfind
      change IsFirstFree used base (candidate base (i + 1))
      apply isFirstFree_candidate
      · simpa [candidate] using hfree
      · intro earlier hlt
        cases earlier with
        | zero => exact hbase
        | succ previous => simpa [candidate] using hearlier previous (Nat.lt_of_succ_lt_succ hlt)
  · rw [if_neg (fun h => hbase (List.contains_iff_mem.1 h))]
    exact .base hbase

theorem IsFirstFree.not_mem {used : List String} {base name : String}
    (h : IsFirstFree used base name) : name ∉ used := by
  cases h with
  | base hbase => exact hbase
  | numbered _ _ hfree _ => exact hfree

theorem IsFirstFree.unique {used : List String} {base name other : String}
    (h : IsFirstFree used base name) (hother : IsFirstFree used base other) : name = other := by
  cases h with
  | base hbase =>
    cases hother with
    | base _ => rfl
    | numbered hbase' _ _ _ => exact absurd hbase' hbase
  | @numbered number hbase hpos hfree hleast =>
    cases hother with
    | base hbase' => exact absurd hbase hbase'
    | @numbered number' _ hpos' hfree' hleast' =>
      -- A smaller number would be taken for the one name and free for the other.
      have hle : number ≤ number' := by
        by_contra hlt
        exact hfree' (hleast number' hpos' (Nat.lt_of_not_le hlt))
      have hge : number' ≤ number := by
        by_contra hlt
        exact hfree (hleast' number hpos (Nat.lt_of_not_le hlt))
      rw [Nat.le_antisymm hle hge]

theorem IsFirstFree.base_mem_or_eq {used : List String} {base name : String}
    (h : IsFirstFree used base name) : base ∈ used ∨ base = name := by
  cases h with
  | base _ => exact .inr rfl
  | numbered hbase _ _ _ => exact .inl hbase

theorem fresh_not_mem (used : List String) (base : String) : fresh used base ∉ used :=
  (isFirstFree_fresh used base).not_mem

example : fresh ["User", "User_1"] "User" = "User_2" := by decide

theorem nodup_append_fresh {used : List String} (hused : used.Nodup) (base : String) :
    (used ++ [fresh used base]).Nodup := by
  rw [List.nodup_append]
  refine ⟨hused, List.nodup_singleton _, fun name hname other hother heq => ?_⟩
  rw [heq, List.mem_singleton.1 hother] at hname
  exact fresh_not_mem used base hname

/-! ## Names taken in turn -/

/-- The names are taken for the base names from left to right, each beside the names in use and
those before it. -/
inductive TakenInTurn : List String → List String → List String → Prop
  | nil {used : List String} : TakenInTurn used [] []
  | cons {used bases names : List String} {base name : String}
    (hname : IsFirstFree used base name) (hnames : TakenInTurn (used ++ [name]) bases names) :
    TakenInTurn used (base :: bases) (name :: names)

namespace TakenInTurn

variable {used bases names : List String}

theorem append {later laterNames : List String} (h : TakenInTurn used bases names)
    (hlater : TakenInTurn (used ++ names) later laterNames) :
    TakenInTurn used (bases ++ later) (names ++ laterNames) := by
  induction h with
  | nil => simpa using hlater
  | @cons used bases names base name hname _ ih =>
    have hrest : TakenInTurn (used ++ [name] ++ names) later laterNames := by simpa using hlater
    exact .cons hname (ih hrest)

/-- A name taken first, those taken below it, and those taken after all of these. -/
theorem nest {base name : String} {below belowNames later laterNames : List String}
    (hname : IsFirstFree used base name) (hbelow : TakenInTurn (used ++ [name]) below belowNames)
    (hlater : TakenInTurn (used ++ name :: belowNames) later laterNames) :
    TakenInTurn used (base :: (below ++ later)) (name :: (belowNames ++ laterNames)) := by
  have hrest : TakenInTurn (used ++ [name] ++ belowNames) later laterNames := by
    simpa using hlater
  exact .cons hname (hbelow.append hrest)

/-- A base name that is not free when its turn comes was taken before. -/
theorem bases_subset (h : TakenInTurn used bases names) : bases ⊆ used ++ names := by
  induction h with
  | nil => exact List.nil_subset _
  | @cons used bases names base name hname _ ih =>
    have hrest : bases ⊆ used ++ name :: names := by simpa using ih
    refine List.cons_subset.2 ⟨?_, hrest⟩
    rcases hname.base_mem_or_eq with hused | rfl
    · exact List.mem_append_left _ hused
    · exact List.mem_append_right _ List.mem_cons_self

theorem unique {others : List String} (h : TakenInTurn used bases names)
    (hothers : TakenInTurn used bases others) : names = others := by
  induction h generalizing others with
  | nil =>
    cases hothers
    rfl
  | cons hname _ ih =>
    cases hothers with
    | cons hother hrest =>
      have heq := hname.unique hother
      subst heq
      rw [ih hrest]

end TakenInTurn

end GraphQLIR.ModelName
