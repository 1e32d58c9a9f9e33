import GraphQLIR.Text.Uppercase
import Mathlib.Data.Nat.Bitwise
/-!
# Uppercase characters

No character that the uppercase mapping leads to is mapped again, and none is an underscore. Both
are read off the tables: the codes that are mapped and those in uppercase forms are listed, and the
two lists share nothing.
-/

namespace GraphQLIR.Text

/-! ## Codes -/

namespace CaseRun

/-- The characters of a run. -/
def codes (run : CaseRun) : List Nat :=
  ((List.range (run.last - run.first + 1)).map (run.first + ·)).filter run.contains

theorem mem_codes_iff {run : CaseRun} {code : Nat} :
    code ∈ run.codes ↔ run.contains code = true := by
  rw [codes, List.mem_filter, and_iff_right_iff_imp]
  intro hcontains
  have hbounds : run.first ≤ code ∧ code ≤ run.last := by
    simp only [contains, Bool.and_eq_true, decide_eq_true_eq] at hcontains
    exact hcontains.1
  refine List.mem_map.2 ⟨code - run.first, List.mem_range.2 ?_, ?_⟩ <;> omega

end CaseRun

/-- The characters that have another uppercase form. -/
def mappedCodes : List Nat :=
  caseExpansions.map Prod.fst ++ caseRuns.flatMap CaseRun.codes

/-- The characters of these uppercase forms. -/
def capitalCodes : List Nat :=
  caseExpansions.flatMap Prod.snd ++ caseRuns.flatMap fun run => run.codes.map run.apply

/-- The codes as the bits of one number. -/
def bitSet (codes : List Nat) : Nat :=
  codes.foldr (fun code set => 1 <<< code ||| set) 0

theorem testBit_bitSet (codes : List Nat) (code : Nat) :
    (bitSet codes).testBit code = true ↔ code ∈ codes := by
  induction codes with
  | nil => simp [bitSet]
  | cons first rest ih =>
    have hfirst : (1 <<< first).testBit code = true ↔ code = first := by
      rw [Nat.one_shiftLeft, Nat.testBit_two_pow, decide_eq_true_eq, eq_comm]
    have hcons : bitSet (first :: rest) = 1 <<< first ||| bitSet rest := rfl
    rw [hcons, Nat.testBit_or, Bool.or_eq_true, hfirst, ih, List.mem_cons]

-- Bit by bit in one operation: comparing the codes in pairs would be far more work.
theorem bitSet_capitalCodes_and_mappedCodes :
    bitSet capitalCodes &&& bitSet mappedCodes = 0 := by
  decide +kernel

theorem capitalCodes_valid : ∀ code ∈ capitalCodes, code.isValidChar ∧ code ≠ 0x5F := by
  decide +kernel

theorem not_mem_mappedCodes {code : Nat} (h : code ∈ capitalCodes) : code ∉ mappedCodes := by
  intro hmapped
  have hboth : (bitSet capitalCodes &&& bitSet mappedCodes).testBit code = true := by
    rw [Nat.testBit_and, Bool.and_eq_true, testBit_bitSet, testBit_bitSet]
    exact ⟨h, hmapped⟩
  rw [bitSet_capitalCodes_and_mappedCodes, Nat.zero_testBit] at hboth
  cases hboth

/-! ## Characters -/

theorem caseExpansions_ne_nil : ∀ expansion ∈ caseExpansions, expansion.2 ≠ [] := by
  decide +kernel

/-- The uppercase form of a character consists of listed ones, or is the character itself. -/
theorem uppercase_cases (c : Char) :
    c.toNat ∈ mappedCodes ∧
        (∃ codes, codes ≠ [] ∧ codes ⊆ capitalCodes ∧ uppercase c = codes.map Char.ofNat) ∨
      c.toNat ∉ mappedCodes ∧ uppercase c = [c] := by
  unfold uppercase
  split
  next expansion hfind =>
    have hmem := List.mem_of_find?_eq_some hfind
    have hcode : expansion.1 = c.toNat := by simpa using List.find?_some hfind
    refine Or.inl ⟨?_, expansion.2, caseExpansions_ne_nil expansion hmem, ?_, rfl⟩
    · exact List.mem_append_left _ (List.mem_map.2 ⟨expansion, hmem, hcode⟩)
    · intro code hform
      exact List.mem_append_left _ (List.mem_flatMap.2 ⟨expansion, hmem, hform⟩)
  next hexpansion =>
    split
    next run hfind =>
      have hmem := List.mem_of_find?_eq_some hfind
      have hcontains : run.contains c.toNat = true := by simpa using List.find?_some hfind
      have hcode : c.toNat ∈ run.codes := CaseRun.mem_codes_iff.2 hcontains
      refine Or.inl ⟨?_, [run.apply c.toNat], List.cons_ne_nil _ _, ?_, rfl⟩
      · exact List.mem_append_right _ (List.mem_flatMap.2 ⟨run, hmem, hcode⟩)
      · refine List.cons_subset.2 ⟨List.mem_append_right _ ?_, List.nil_subset _⟩
        exact List.mem_flatMap.2 ⟨run, hmem, List.mem_map_of_mem hcode⟩
    next hrun =>
      refine Or.inr ⟨fun hmapped => ?_, rfl⟩
      rcases List.mem_append.1 hmapped with hmem | hmem
      · obtain ⟨expansion, hmem, heq⟩ := List.mem_map.1 hmem
        exact List.find?_eq_none.1 hexpansion expansion hmem (beq_iff_eq.2 heq)
      · obtain ⟨run, hmem, hcode⟩ := List.mem_flatMap.1 hmem
        exact List.find?_eq_none.1 hrun run hmem (CaseRun.mem_codes_iff.1 hcode)

theorem uppercase_ne_nil (c : Char) : uppercase c ≠ [] := by
  rcases uppercase_cases c with ⟨-, codes, hcodes, -, hform⟩ | ⟨-, hself⟩
  · rw [hform, ne_eq, List.map_eq_nil_iff]
    exact hcodes
  · rw [hself]
    exact List.cons_ne_nil c []

theorem toNat_ofNat_of_mem {code : Nat} (h : code ∈ capitalCodes) :
    (Char.ofNat code).toNat = code := by
  rw [Char.ofNat, dif_pos (capitalCodes_valid code h).1]
  rfl

/-- An uppercase form is left as it is, character by character. -/
theorem uppercase_of_mem_uppercase {c capital : Char} (h : capital ∈ uppercase c) :
    uppercase capital = [capital] := by
  have hunmapped : capital.toNat ∉ mappedCodes := by
    rcases uppercase_cases c with ⟨-, codes, -, hsubset, hform⟩ | ⟨hc, hself⟩
    · rw [hform] at h
      obtain ⟨code, hcode, rfl⟩ := List.mem_map.1 h
      rw [toNat_ofNat_of_mem (hsubset hcode)]
      exact not_mem_mappedCodes (hsubset hcode)
    · rw [hself, List.mem_singleton] at h
      rwa [h]
  rcases uppercase_cases capital with ⟨hmapped, -⟩ | ⟨-, hself⟩
  · exact absurd hmapped hunmapped
  · exact hself

theorem underscore_not_mem_uppercase {c : Char} (hc : c ≠ '_') : '_' ∉ uppercase c := by
  intro h
  rcases uppercase_cases c with ⟨-, codes, -, hsubset, hform⟩ | ⟨-, hself⟩
  · rw [hform] at h
    obtain ⟨code, hcode, hunderscore⟩ := List.mem_map.1 h
    have hnat := toNat_ofNat_of_mem (hsubset hcode)
    rw [hunderscore] at hnat
    exact (capitalCodes_valid code (hsubset hcode)).2 hnat.symm
  · rw [hself, List.mem_singleton] at h
    exact hc h.symm

end GraphQLIR.Text
