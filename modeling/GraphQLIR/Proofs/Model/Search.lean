import GraphQLIR.Proofs.Model.Naming
import Mathlib.Data.Finset.Card
/-!
# The search for a free name

Names are tried one after the other for as long as they are in use, without a limit. Each number is
tried because all before it are taken, and names in use are finitely many, so the search ends. It
ends with the name that is taken by looking through as many numbers as there are names in use.
-/

namespace GraphQLIR

namespace ModelName

/-! ## Attempts -/

variable {used : List String} {base : String} {attempt following last : Attempt} {rounds : Nat}

theorem next?_eq_none_iff : attempt.next? used base = none ↔ attempt.name ∉ used := by
  simp [Attempt.next?]

theorem next?_eq_some_iff : attempt.next? used base = some following ↔
    attempt.name ∈ used ∧ ⟨attempt.number + 1, candidate base (attempt.number + 1)⟩ = following := by
  simp [Attempt.next?, candidate]

theorem number_of_next? (hnext : attempt.next? used base = some following) :
    following.number = attempt.number + 1 := by
  rw [← (next?_eq_some_iff.1 hnext).2]

/-! ## What an attempt has behind it -/

/-- All candidates before the one in hand are in use. -/
structure Reached (used : List String) (base : String) (attempt : Attempt) : Prop where
  name_eq : attempt.name = candidate base attempt.number
  taken : ∀ earlier < attempt.number, candidate base earlier ∈ used

theorem reached_first (used : List String) (base : String) :
    Reached used base (.first base) where
  name_eq := rfl
  taken earlier hearlier := absurd hearlier (Nat.not_lt_zero earlier)

namespace Reached

theorem next (h : Reached used base attempt) (hnext : attempt.next? used base = some following) :
    Reached used base following := by
  obtain ⟨hmem, rfl⟩ := next?_eq_some_iff.1 hnext
  refine ⟨rfl, fun earlier hearlier => ?_⟩
  rcases Nat.lt_succ_iff_lt_or_eq.1 hearlier with hlt | rfl
  · exact h.taken earlier hlt
  · rw [← h.name_eq]
    exact hmem

theorem number_le (h : Reached used base attempt) : attempt.number ≤ used.toFinset.card := by
  rw [List.card_toFinset]
  apply le_length_of_taken
  intro earlier hearlier
  exact List.mem_dedup.2 (h.taken earlier hearlier)

/-- The number grows in every round, and cannot grow past the count of the names in use. -/
theorem exists_ends (h : Reached used base attempt) :
    ∃ rounds last, Ends used base attempt rounds last := by
  induction hleft : used.toFinset.card - attempt.number using Nat.strong_induction_on
    generalizing attempt with
  | _ left ih =>
    cases hnext : attempt.next? used base with
    | none => exact ⟨0, attempt, .free hnext⟩
    | some following =>
      have hreached := h.next hnext
      have hle := hreached.number_le
      have hnumber := number_of_next? hnext
      obtain ⟨rounds, last, hends⟩ := ih _ (by omega) hreached rfl
      exact ⟨rounds + 1, last, .taken hnext hends⟩

theorem isFirstFree (h : Reached used base attempt) (hfree : attempt.name ∉ used) :
    IsFirstFree used base attempt.name := by
  rw [h.name_eq] at hfree ⊢
  exact isFirstFree_candidate hfree h.taken

end Reached

namespace Ends

theorem reached (hends : Ends used base attempt rounds last) (h : Reached used base attempt) :
    Reached used base last := by
  induction hends with
  | free _ => exact h
  | taken hnext _ ih => exact ih (h.next hnext)

theorem number_eq (hends : Ends used base attempt rounds last) :
    last.number = attempt.number + rounds := by
  induction hends with
  | free _ => rfl
  | taken hnext _ ih =>
    have hnumber := number_of_next? hnext
    omega

theorem name_not_mem (hends : Ends used base attempt rounds last) : last.name ∉ used := by
  induction hends with
  | free hfree => exact next?_eq_none_iff.1 hfree
  | taken _ _ ih => exact ih

theorem isFirstFree (hends : Ends used base (.first base) rounds last) :
    IsFirstFree used base last.name :=
  (hends.reached (reached_first used base)).isFirstFree hends.name_not_mem

end Ends

/-! ## Taking names -/

/-- What is taken for a base name: a name, together with the names that are in use then. -/
structure TakesLeast (used : List String) (base : String) (taken : String × List String) :
    Prop where
  /-- The search needs no more numbers than there are names in use. -/
  ends : ∃ rounds ≤ used.toFinset.card, ∃ last,
    Ends used base (.first base) rounds last ∧ last.name = taken.1
  unnumbered : base ∉ used → taken.1 = base
  numbered : base ∈ used → ∃ number, 1 ≤ number ∧ taken.1 = base ++ "_" ++ toString number ∧
    ∀ smaller, 1 ≤ smaller → smaller < number → base ++ "_" ++ toString smaller ∈ used
  free : taken.1 ∉ used
  uses : taken.2.toFinset = insert taken.1 used.toFinset

theorem take_takesLeast (used : List String) (base : String) :
    TakesLeast used base (take used base) := by
  have hfresh : IsFirstFree used base (take used base).1 := isFirstFree_fresh used base
  constructor
  case ends =>
    obtain ⟨rounds, last, hends⟩ := (reached_first used base).exists_ends
    have hlast : last.number = rounds := hends.number_eq.trans (Nat.zero_add rounds)
    refine ⟨rounds, ?_, last, hends, hends.isFirstFree.unique hfresh⟩
    rw [← hlast]
    exact (hends.reached (reached_first used base)).number_le
  case unnumbered =>
    intro hbase
    exact hfresh.unique (.base hbase)
  case numbered =>
    intro hbase
    generalize (take used base).1 = name at hfresh
    cases hfresh with
    | base hfree => exact absurd hbase hfree
    | @numbered number _ hpos _ hleast => exact ⟨number, hpos, rfl, hleast⟩
  case free => exact hfresh.not_mem
  case uses =>
    ext name
    simp only [take, List.mem_toFinset, List.mem_append, List.mem_singleton, Finset.mem_insert]
    exact or_comm

end ModelName

end GraphQLIR
