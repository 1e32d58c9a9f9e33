import GraphQLIR.Proofs.Text.Capitals
import GraphQLIR.Text.PascalCase
/-!
# Words in PascalCase

An underscore between two texts becomes nothing in PascalCase, and a word without underscores gets a
capital. Every text is made of words in this way, so all else follows from these two facts and from
what an uppercase form looks like.
-/

namespace GraphQLIR.Text

/-- What is asked of the way in which single characters are capitalized: something stands for each
one, underscores do not come in, and a capital has a capital already. -/
def Capitalizes (capital : Char → List Char) : Prop :=
  ∀ c, c ≠ '_' →
    ∃ first more, capital c = first :: more ∧ '_' ∉ first :: more ∧ capital first = [first]

theorem capitalizes_uppercase : Capitalizes uppercase := by
  intro c hc
  obtain ⟨first, more, hform⟩ := List.exists_cons_of_ne_nil (uppercase_ne_nil c)
  have hfirst : first ∈ uppercase c := hform ▸ List.mem_cons_self
  refine ⟨first, more, hform, ?_, uppercase_of_mem_uppercase hfirst⟩
  rw [← hform]
  exact underscore_not_mem_uppercase hc

/-- A word with a capital. -/
def capitalized (capital : Char → List Char) : List Char → List Char
  | [] => []
  | first :: rest => capital first ++ rest

/-- The conversion joins what it makes of two texts with an underscore between them, and gives a
single word a capital. -/
structure JoinsCapitalized (capital : Char → List Char) (convert : List Char → List Char) :
    Prop where
  append : ∀ text more, convert (text ++ '_' :: more) = convert text ++ convert more
  word : ∀ word, '_' ∉ word → convert word = capitalized capital word

theorem pascalChars_append (atStart : Bool) (text more : List Char) :
    pascalChars atStart (text ++ '_' :: more) =
      pascalChars atStart text ++ pascalChars true more := by
  induction text generalizing atStart with
  | nil => simp [pascalChars]
  | cons c rest ih =>
    rw [List.cons_append, pascalChars, pascalChars, ih true, ih false]
    split
    · rfl
    · split
      · rw [List.append_assoc]
      · rfl

theorem pascalChars_false_word {word : List Char} (hword : '_' ∉ word) :
    pascalChars false word = word := by
  induction word with
  | nil => rfl
  | cons c rest ih =>
    obtain ⟨hc, hrest⟩ := List.ne_and_not_mem_of_not_mem_cons hword
    rw [pascalChars, if_neg (Ne.symm hc), if_neg Bool.false_ne_true, ih hrest]

theorem joinsCapitalized_pascalChars : JoinsCapitalized uppercase (pascalChars true) where
  append := pascalChars_append true
  word word hword := by
    cases word with
    | nil => rfl
    | cons c rest =>
      obtain ⟨hc, hrest⟩ := List.ne_and_not_mem_of_not_mem_cons hword
      rw [pascalChars, if_neg (Ne.symm hc), if_pos rfl, pascalChars_false_word hrest, capitalized]

/-- A text is one word, or two texts with an underscore between them. -/
@[elab_as_elim]
theorem wordInduction {motive : List Char → Prop}
    (word : ∀ word, '_' ∉ word → motive word)
    (append : ∀ text more, motive text → motive more → motive (text ++ '_' :: more))
    (text : List Char) : motive text := by
  induction hlength : text.length using Nat.strong_induction_on generalizing text with
  | _ length ih =>
    by_cases hunderscore : '_' ∈ text
    · obtain ⟨before, after, rfl, -⟩ := List.eq_append_cons_of_mem hunderscore
      rw [List.length_append, List.length_cons] at hlength
      apply append
      · exact ih before.length (by omega) before rfl
      · exact ih after.length (by omega) after rfl
    · exact word text hunderscore

/-! ## What follows for any such conversion -/

namespace JoinsCapitalized

variable {capital : Char → List Char} {convert : List Char → List Char}

theorem underscore_not_mem (h : JoinsCapitalized capital convert) (hcapital : Capitalizes capital)
    (text : List Char) : '_' ∉ convert text := by
  induction text using wordInduction with
  | word word hword =>
    rw [h.word word hword]
    cases word with
    | nil => exact List.not_mem_nil
    | cons c rest =>
      obtain ⟨hc, hrest⟩ := List.ne_and_not_mem_of_not_mem_cons hword
      obtain ⟨first, more, hform, hplain, -⟩ := hcapital c (Ne.symm hc)
      rw [capitalized, hform, List.mem_append, not_or]
      exact ⟨hplain, hrest⟩
  | append text more ihtext ihmore =>
    rw [h.append, List.mem_append, not_or]
    exact ⟨ihtext, ihmore⟩

theorem eq_nil_iff (h : JoinsCapitalized capital convert) (hcapital : Capitalizes capital)
    (text : List Char) : convert text = [] ↔ ∀ c ∈ text, c = '_' := by
  induction text using wordInduction with
  | word word hword =>
    rw [h.word word hword]
    cases word with
    | nil => exact iff_of_true rfl (List.forall_mem_nil _)
    | cons c rest =>
      obtain ⟨hc, -⟩ := List.ne_and_not_mem_of_not_mem_cons hword
      obtain ⟨first, more, hform, -, -⟩ := hcapital c (Ne.symm hc)
      refine iff_of_false ?_ fun hall => hc (hall c List.mem_cons_self).symm
      rw [capitalized, hform, List.cons_append]
      exact List.cons_ne_nil _ _
  | append text more ihtext ihmore =>
    rw [h.append, List.append_eq_nil_iff, ihtext, ihmore, List.forall_mem_append,
      List.forall_mem_cons, eq_self, true_and]

theorem capital_head (h : JoinsCapitalized capital convert) (hcapital : Capitalizes capital)
    (text : List Char) : ∀ first ∈ (convert text).head?, capital first = [first] := by
  induction text using wordInduction with
  | word word hword =>
    rw [h.word word hword]
    cases word with
    | nil => exact fun first hfirst => absurd hfirst (Option.not_mem_none first)
    | cons c rest =>
      obtain ⟨hc, -⟩ := List.ne_and_not_mem_of_not_mem_cons hword
      obtain ⟨first, more, hform, -, hfirst⟩ := hcapital c (Ne.symm hc)
      rw [capitalized, hform, List.cons_append, List.head?_cons]
      intro other hother
      rwa [← Option.some.inj hother]
  | append text more ihtext ihmore =>
    rw [h.append, List.head?_append]
    intro first hfirst
    cases htext : (convert text).head? with
    | none =>
      rw [htext, Option.none_or] at hfirst
      exact ihmore first hfirst
    | some other =>
      rw [htext, Option.some_or] at hfirst
      exact ihtext first (htext ▸ hfirst)

/-- What is converted is one word, and has its capital. -/
theorem convert_convert (h : JoinsCapitalized capital convert) (hcapital : Capitalizes capital)
    (text : List Char) : convert (convert text) = convert text := by
  have hhead := h.capital_head hcapital text
  rw [h.word (convert text) (h.underscore_not_mem hcapital text)]
  cases hconvert : convert text with
  | nil => rfl
  | cons first rest =>
    rw [hconvert] at hhead
    rw [capitalized, hhead first rfl, List.singleton_append]

end JoinsCapitalized

/-- The conversion of texts turns underscores into concatenation. No underscore is left, nothing is
left of a text of underscores only, and what was converted stays as it is. -/
structure JoinsWords (convert : String → String) : Prop where
  append : ∀ text more, convert (text ++ "_" ++ more) = convert text ++ convert more
  underscore_not_mem : ∀ text, '_' ∉ (convert text).toList
  eq_empty_iff : ∀ text, convert text = "" ↔ ∀ c ∈ text.toList, c = '_'
  convert_convert : ∀ text, convert (convert text) = convert text

theorem JoinsCapitalized.joinsWords {capital : Char → List Char} {convert : List Char → List Char}
    (h : JoinsCapitalized capital convert) (hcapital : Capitalizes capital) :
    JoinsWords fun text => String.ofList (convert text.toList) where
  append text more := by
    have hchars : (text ++ "_" ++ more).toList = text.toList ++ '_' :: more.toList := by simp
    rw [hchars, h.append, String.ofList_append]
  underscore_not_mem text := by
    rw [String.toList_ofList]
    exact h.underscore_not_mem hcapital text.toList
  eq_empty_iff text := by
    rw [← String.toList_eq_nil_iff, String.toList_ofList]
    exact h.eq_nil_iff hcapital text.toList
  convert_convert text := by
    rw [String.toList_ofList, h.convert_convert hcapital]

theorem pascalCase_joinsWords : JoinsWords pascalCase :=
  joinsCapitalized_pascalChars.joinsWords capitalizes_uppercase

end GraphQLIR.Text
