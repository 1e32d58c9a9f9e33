import GraphQLIR.Proofs.Text.Words
/-!
# Names in PascalCase

A name consists of letters, digits and underscores and does not start with a digit. Without its
underscores it can start with one, and it can be empty, so that its PascalCase form need not be a
name.
-/

namespace GraphQLIR.Text

def IsNameChar (c : Char) : Prop :=
  c.isAlphanum = true ∨ c = '_'

instance (c : Char) : Decidable (IsNameChar c) :=
  inferInstanceAs (Decidable (_ ∨ _))

/-- A name as GraphQL has it: ASCII letters, digits and underscores, the first one not a digit. -/
structure IsName (text : String) : Prop where
  chars : ∀ c ∈ text.toList, IsNameChar c
  start : ∃ c ∈ text.toList.head?, c.isDigit = false

-- By tests on the text: the quantifiers are over a finite type, all of which could be searched.
instance (text : String) : Decidable (IsName text) :=
  decidable_of_iff (text.toList.all (fun c => decide (IsNameChar c)) = true ∧
      text.toList.head?.any (fun c => !c.isDigit) = true) <| by
    rw [List.all_eq_true, Option.any_eq_true]
    simp only [decide_eq_true_eq, Bool.not_eq_true']
    exact ⟨fun h => ⟨h.1, h.2⟩, fun h => ⟨h.chars, h.start⟩⟩

theorem IsName.append {text more : String} (h : IsName text)
    (hmore : ∀ c ∈ more.toList, IsNameChar c) : IsName (text ++ more) := by
  constructor
  · rw [String.toList_append, List.forall_mem_append]
    exact ⟨h.chars, hmore⟩
  · obtain ⟨c, hc, hdigit⟩ := h.start
    rw [Option.mem_def] at hc
    refine ⟨c, ?_, hdigit⟩
    rw [String.toList_append, List.head?_append, hc]
    rfl

/-! ## Uppercase letters -/

theorem caseRuns_ascii : ∀ run ∈ caseRuns, run.first < 0x80 →
    run.first = 0x61 ∧ run.last = 0x7A ∧ run.target = 0x41 := by
  decide +kernel

theorem caseExpansions_ascii : ∀ expansion ∈ caseExpansions, 0x80 ≤ expansion.1 := by
  decide +kernel

theorem capital_class : ∀ i < 26,
    (Char.ofNat (0x41 + i)).isAlphanum = (Char.ofNat (0x61 + i)).isAlphanum ∧
      (Char.ofNat (0x41 + i)).isDigit = (Char.ofNat (0x61 + i)).isDigit := by
  decide

/-- Up to 127, uppercase leaves letters letters, digits digits and all others what they are. -/
theorem uppercase_ascii {c : Char} (hascii : c.toNat < 0x80) :
    ∃ capital, uppercase c = [capital] ∧ capital.isAlphanum = c.isAlphanum ∧
      capital.isDigit = c.isDigit := by
  have hexpansion : (caseExpansions.find? fun expansion => expansion.1 == c.toNat) = none := by
    rw [List.find?_eq_none]
    intro expansion hmem
    have hcode := caseExpansions_ascii expansion hmem
    rw [beq_iff_eq]
    omega
  rw [uppercase, hexpansion]
  cases hfind : caseRuns.find? fun run => run.contains c.toNat with
  | none => exact ⟨c, rfl, rfl, rfl⟩
  | some run =>
    have hcontains := List.find?_some hfind
    simp only [CaseRun.contains, Bool.and_eq_true, decide_eq_true_eq] at hcontains
    obtain ⟨⟨hfirst, hlast⟩, -⟩ := hcontains
    obtain ⟨hrun, hrunLast, htarget⟩ :=
      caseRuns_ascii run (List.mem_of_find?_eq_some hfind) (by omega)
    have hc : c = Char.ofNat (0x61 + (c.toNat - run.first)) := by
      rw [hrun, Nat.add_sub_cancel' (by omega), Char.ofNat_toNat]
    have hclass := capital_class (c.toNat - run.first) (by omega)
    rw [← hc] at hclass
    refine ⟨Char.ofNat (0x41 + (c.toNat - run.first)), ?_, hclass⟩
    simp only [CaseRun.apply, htarget]

theorem IsNameChar.toNat_lt {c : Char} (h : IsNameChar c) : c.toNat < 0x80 := by
  rcases h with h | rfl
  · delta Char.isAlphanum Char.isAlpha Char.isUpper Char.isLower Char.isDigit at h
    simp only [Bool.or_eq_true, Bool.and_eq_true, decide_eq_true_eq, ge_iff_le,
      UInt32.le_iff_toNat_le, Char.reduceVal, UInt32.reduceToNat] at h
    change c.val.toNat < 0x80
    omega
  · decide

/-! ## Words -/

/-- The first character of the first word. -/
def wordStart? (text : String) : Option Char :=
  text.toList.find? (· ≠ '_')

theorem isAlphanum_of_mem_pascalChars {chars : List Char} (hchars : ∀ c ∈ chars, IsNameChar c)
    (atStart : Bool) : ∀ c ∈ pascalChars atStart chars, c.isAlphanum = true := by
  induction chars generalizing atStart with
  | nil => exact List.forall_mem_nil _
  | cons c rest ih =>
    obtain ⟨hc, hrest⟩ := List.forall_mem_cons.1 hchars
    rw [pascalChars]
    split
    case isTrue hunderscore => exact ih hrest true
    case isFalse hword =>
      have halphanum : c.isAlphanum = true := hc.resolve_right hword
      split
      · obtain ⟨capital, hupper, hclass, -⟩ := uppercase_ascii hc.toNat_lt
        rw [hupper, List.singleton_append, List.forall_mem_cons, hclass]
        exact ⟨halphanum, ih hrest false⟩
      · exact List.forall_mem_cons.2 ⟨halphanum, ih hrest false⟩

/-- The first word stays at the front, and starts with a digit just if it did before. -/
theorem head?_pascalChars {chars : List Char} (hchars : ∀ c ∈ chars, IsNameChar c) :
    (pascalChars true chars).head?.map Char.isDigit =
      (chars.find? (· ≠ '_')).map Char.isDigit := by
  induction chars with
  | nil => rfl
  | cons c rest ih =>
    obtain ⟨hc, hrest⟩ := List.forall_mem_cons.1 hchars
    rw [pascalChars]
    split
    case isTrue hunderscore =>
      rw [ih hrest, List.find?_cons_of_neg (by simpa using hunderscore)]
    case isFalse hword =>
      obtain ⟨capital, hupper, -, hclass⟩ := uppercase_ascii hc.toNat_lt
      rw [if_pos rfl, hupper, List.find?_cons_of_pos (by simpa using hword)]
      exact congrArg some hclass

variable {text : String}

theorem wordStart?_eq_none_iff : wordStart? text = none ↔ ∀ c ∈ text.toList, c = '_' := by
  simp [wordStart?]

/-- Nothing is left of a text without words. -/
theorem pascalCase_eq_empty_iff : pascalCase text = "" ↔ wordStart? text = none := by
  rw [← String.toList_eq_nil_iff, pascalCase, String.toList_ofList, wordStart?_eq_none_iff]
  exact joinsCapitalized_pascalChars.eq_nil_iff capitalizes_uppercase text.toList

theorem isName_pascalCase_iff (hchars : ∀ c ∈ text.toList, IsNameChar c) :
    IsName (pascalCase text) ↔ ∃ c ∈ wordStart? text, c.isDigit = false := by
  have hhead := head?_pascalChars hchars
  have hstart : (∃ c ∈ (pascalCase text).toList.head?, c.isDigit = false) ↔
      ∃ c ∈ wordStart? text, c.isDigit = false := by
    simp only [Option.mem_def, ← Option.map_eq_some_iff]
    rw [pascalCase, String.toList_ofList, hhead, wordStart?]
  rw [← hstart]
  refine ⟨fun h => h.start, fun h => ⟨?_, h⟩⟩
  rw [pascalCase, String.toList_ofList]
  exact fun c hc => .inl (isAlphanum_of_mem_pascalChars hchars true c hc)

example : pascalCase "first_2nd" = "First2nd" ∧ pascalCase "_2nd" = "2nd" := by decide

end GraphQLIR.Text
