import GraphQLIR.Proofs.Number.Numerals
import Mathlib.Data.List.TakeDrop
import Mathlib.Data.List.TakeWhile
/-!
# Numbers of the JSON grammar

The grammar by the texts of its parts, without a scanner. A scan that leaves nothing succeeds just
on the texts of the grammar, and gives the parts that they are spelled with.
-/

namespace GraphQLIR

namespace Number

/-- No digit continues a run of digits here. -/
def EndsDigits (rest : List Char) : Prop :=
  ∀ c ∈ rest.head?, c.isDigit = false

theorem span_isDigit_eq_iff {chars digits rest : List Char} :
    chars.span Char.isDigit = (digits, rest) ↔
      chars = digits ++ rest ∧ (∀ digit ∈ digits, digit.isDigit) ∧ EndsDigits rest := by
  rw [List.span_eq_takeWhile_dropWhile, Prod.mk.injEq]
  constructor
  · rintro ⟨rfl, rfl⟩
    refine ⟨List.takeWhile_append_dropWhile.symm, fun digit => List.mem_takeWhile_imp, ?_⟩
    intro c hc
    have hhead := List.head?_dropWhile_not Char.isDigit chars
    rwa [hc] at hhead
  · rintro ⟨rfl, hdigits, hrest⟩
    rw [List.takeWhile_append_of_pos hdigits, List.dropWhile_append_of_pos hdigits]
    cases rest with
    | nil => simp
    | cons c rest => simp [hrest c rfl]

end Number

namespace NumberLiteral

open Number

theorem scanNumeral_eq_some_iff {chars digits rest : List Char} :
    scanNumeral chars = some (digits, rest) ↔
      chars = digits ++ rest ∧ IsNumeral digits ∧ EndsDigits rest := by
  have hspan : scanNumeral chars = some (digits, rest) ↔
      digits ≠ [] ∧ chars.span Char.isDigit = (digits, rest) := by
    rw [scanNumeral]
    rcases chars.span Char.isDigit with ⟨front, back⟩
    rw [Option.ite_none_left_eq_some, List.isEmpty_iff, Option.some.injEq]
    constructor
    · rintro ⟨hne, h⟩
      cases h
      exact ⟨hne, rfl⟩
    · rintro ⟨hne, h⟩
      cases h
      exact ⟨hne, rfl⟩
  rw [hspan, span_isDigit_eq_iff]
  constructor
  · rintro ⟨hne, hchars, hdigits, hrest⟩
    exact ⟨hchars, ⟨hne, hdigits⟩, hrest⟩
  · rintro ⟨hchars, ⟨hne, hdigits⟩, hrest⟩
    exact ⟨hne, hchars, hdigits, hrest⟩

theorem scanInteger_eq_some_iff_splitSign {chars rest : List Char} {n : Int} :
    scanInteger chars = some (n, rest) ↔
      ∃ digits, (splitSign chars).2 = digits ++ rest ∧ IsNumeral digits ∧ EndsDigits rest ∧
        n = withSign (splitSign chars).1 (decimal digits) := by
  simp only [scanInteger, Option.map_eq_some_iff, Prod.exists, scanNumeral_eq_some_iff]
  constructor
  · rintro ⟨digits, rest, ⟨hchars, hdigits, hrest⟩, h⟩
    cases h
    exact ⟨digits, hchars, hdigits, hrest, by rw [← digitsValue_eq_decimal]; rfl⟩
  · rintro ⟨digits, hchars, hdigits, hrest, rfl⟩
    exact ⟨digits, rest, ⟨hchars, hdigits, hrest⟩, by rw [← digitsValue_eq_decimal]; rfl⟩

theorem scanInteger_eq_some_iff {chars rest : List Char} {n : Int} :
    scanInteger chars = some (n, rest) ↔
      ∃ text, chars = text ++ rest ∧ Denotes text n ∧ EndsDigits rest := by
  rw [scanInteger_eq_some_iff_splitSign]
  constructor
  · fun_cases splitSign chars with
    | case1 after =>
      rintro ⟨digits, hafter, hdigits, hrest, rfl⟩
      exact ⟨'-' :: digits, congrArg _ hafter, .minus hdigits, hrest⟩
    | case2 after =>
      rintro ⟨digits, hafter, hdigits, hrest, rfl⟩
      exact ⟨'+' :: digits, congrArg _ hafter, .plus hdigits, hrest⟩
    | case3 =>
      rintro ⟨digits, hchars, hdigits, hrest, rfl⟩
      exact ⟨digits, hchars, .unsigned hdigits, hrest⟩
  · rintro ⟨text, rfl, h | h | h, hrest⟩
    · rw [splitSign_append_of_isNumeral h]
      exact ⟨_, rfl, h, hrest, rfl⟩
    · exact ⟨_, rfl, h, hrest, rfl⟩
    · exact ⟨_, rfl, h, hrest, rfl⟩

/-- A single zero, or a numeral that does not start with one. -/
structure IsWhole (digits : List Char) : Prop extends IsNumeral digits where
  eq_zero_of_head? : digits.head? = some '0' → digits = ['0']

/-- A point and a numeral, or nothing. -/
inductive SpellsFraction : Option (List Char) → List Char → Prop
  | absent : SpellsFraction none []
  | present {digits : List Char} (h : IsNumeral digits) :
    SpellsFraction (some digits) ('.' :: digits)

/-- The mark and an integer, or nothing. -/
inductive SpellsExponent : Option Int → List Char → Prop
  | absent : SpellsExponent none []
  | lower {chars : List Char} {n : Int} (h : Denotes chars n) :
    SpellsExponent (some n) ('e' :: chars)
  | upper {chars : List Char} {n : Int} (h : Denotes chars n) :
    SpellsExponent (some n) ('E' :: chars)

/-- The parts that follow the sign, in turn. -/
inductive SpellsParts (literal : NumberLiteral) : List Char → Prop
  | mk {fraction exponent : List Char} (hwhole : IsWhole literal.whole)
    (hfraction : SpellsFraction literal.fraction fraction)
    (hexponent : SpellsExponent literal.exponent exponent) :
    SpellsParts literal (literal.whole ++ (fraction ++ exponent))

/-- A minus sign or none, and the parts. -/
inductive Spells (literal : NumberLiteral) : List Char → Prop
  | unsigned {chars : List Char} (hsign : literal.negative = false)
    (h : literal.SpellsParts chars) : Spells literal chars
  | minus {chars : List Char} (hsign : literal.negative = true)
    (h : literal.SpellsParts chars) : Spells literal ('-' :: chars)

theorem SpellsExponent.endsDigits {exponent : Option Int} {text : List Char}
    (h : SpellsExponent exponent text) : EndsDigits text := by
  cases h <;> simp [EndsDigits]

theorem SpellsFraction.endsDigits_append {fraction : Option (List Char)} {text more : List Char}
    (h : SpellsFraction fraction text) (hmore : EndsDigits more) : EndsDigits (text ++ more) := by
  cases h with
  | absent => exact hmore
  | present h => simp [EndsDigits]

theorem scanWhole_sound {chars digits rest : List Char}
    (h : scanWhole chars = some (digits, rest)) : chars = digits ++ rest ∧ IsWhole digits := by
  unfold scanWhole at h
  split at h
  · cases h
    exact ⟨rfl, ⟨⟨by simp, by simp⟩, fun _ => rfl⟩⟩
  · rename_i hzero
    obtain ⟨rfl, hdigits, -⟩ := scanNumeral_eq_some_iff.1 h
    refine ⟨rfl, hdigits, fun hhead => ?_⟩
    obtain ⟨more, rfl⟩ := List.head?_eq_some_iff.1 hhead
    exact absurd rfl (hzero (more ++ rest))

theorem scanWhole_append {whole rest : List Char} (h : IsWhole whole) (hrest : EndsDigits rest) :
    scanWhole (whole ++ rest) = some (whole, rest) := by
  by_cases hzero : whole.head? = some '0'
  · rw [h.eq_zero_of_head? hzero]
    rfl
  · rw [scanWhole.eq_2, scanNumeral_eq_some_iff]
    · exact ⟨rfl, h.toIsNumeral, hrest⟩
    · intro more hmore
      rw [← List.head?_append_of_ne_nil whole h.ne_nil, hmore] at hzero
      exact hzero rfl

theorem scanFraction_sound {chars rest : List Char} {fraction : Option (List Char)}
    (h : scanFraction chars = some (fraction, rest)) :
    ∃ text, chars = text ++ rest ∧ SpellsFraction fraction text := by
  unfold scanFraction at h
  split at h
  · obtain ⟨⟨digits, rest⟩, hdigits, hparts⟩ := Option.map_eq_some_iff.1 h
    cases hparts
    obtain ⟨rfl, hdigits, -⟩ := scanNumeral_eq_some_iff.1 hdigits
    exact ⟨'.' :: digits, rfl, .present hdigits⟩
  · cases h
    exact ⟨[], rfl, .absent⟩

theorem scanFraction_append {fraction : Option (List Char)} {exponent : Option Int}
    {text more : List Char} (h : SpellsFraction fraction text)
    (hmore : SpellsExponent exponent more) :
    scanFraction (text ++ more) = some (fraction, more) := by
  cases h with
  | absent => cases hmore <;> rfl
  | present h =>
    exact Option.map_eq_some_iff.2
      ⟨_, scanNumeral_eq_some_iff.2 ⟨rfl, h, hmore.endsDigits⟩, rfl⟩

theorem spellsExponent_of_scanInteger {after rest : List Char} {exponent : Option Int} {mark : Char}
    (hmark : ∀ {chars n}, Denotes chars n → SpellsExponent (some n) (mark :: chars))
    (h : (scanInteger after).map (Prod.map some id) = some (exponent, rest)) :
    ∃ text, mark :: after = text ++ rest ∧ SpellsExponent exponent text := by
  obtain ⟨⟨n, rest⟩, hn, hparts⟩ := Option.map_eq_some_iff.1 h
  cases hparts
  obtain ⟨text, rfl, hdenotes, -⟩ := scanInteger_eq_some_iff.1 hn
  exact ⟨mark :: text, rfl, hmark hdenotes⟩

theorem scanExponent_sound {chars rest : List Char} {exponent : Option Int}
    (h : scanExponent chars = some (exponent, rest)) :
    ∃ text, chars = text ++ rest ∧ SpellsExponent exponent text := by
  unfold scanExponent at h
  split at h
  · exact spellsExponent_of_scanInteger .lower h
  · exact spellsExponent_of_scanInteger .upper h
  · cases h
    exact ⟨[], rfl, .absent⟩

theorem scanExponent_eq {exponent : Option Int} {text : List Char}
    (h : SpellsExponent exponent text) : scanExponent text = some (exponent, []) := by
  have hscan {chars : List Char} {n : Int} (h : Denotes chars n) :
      scanInteger chars = some (n, []) :=
    scanInteger_eq_some_iff.2 ⟨chars, (List.append_nil chars).symm, h, by simp [EndsDigits]⟩
  cases h with
  | absent => rfl
  | lower h => exact Option.map_eq_some_iff.2 ⟨_, hscan h, rfl⟩
  | upper h => exact Option.map_eq_some_iff.2 ⟨_, hscan h, rfl⟩

theorem scanParts_sound {negative : Bool} {chars rest : List Char} {literal : NumberLiteral}
    (h : scanParts negative chars = some (literal, rest)) :
    literal.negative = negative ∧ ∃ text, chars = text ++ rest ∧ literal.SpellsParts text := by
  simp only [scanParts, Option.bind_eq_bind, Option.bind_eq_some_iff, Prod.exists] at h
  obtain ⟨whole, afterWhole, hscanWhole, fraction, afterFraction, hscanFraction, exponent,
    afterExponent, hscanExponent, hliteral⟩ := h
  cases hliteral
  obtain ⟨rfl, hwhole⟩ := scanWhole_sound hscanWhole
  obtain ⟨fractionText, rfl, hfraction⟩ := scanFraction_sound hscanFraction
  obtain ⟨exponentText, rfl, hexponent⟩ := scanExponent_sound hscanExponent
  exact ⟨rfl, _, by simp only [List.append_assoc], .mk hwhole hfraction hexponent⟩

theorem scanParts_eq {literal : NumberLiteral} {chars : List Char} (h : literal.SpellsParts chars) :
    scanParts literal.negative chars = some (literal, []) := by
  obtain ⟨hwhole, hfraction, hexponent⟩ := h
  rw [scanParts, scanWhole_append hwhole (hfraction.endsDigits_append hexponent.endsDigits)]
  simp only [Option.bind_eq_bind, Option.bind_some, scanFraction_append hfraction hexponent,
    scanExponent_eq hexponent]
  rfl

theorem SpellsParts.head?_ne {literal : NumberLiteral} {chars : List Char}
    (h : literal.SpellsParts chars) : chars.head? ≠ some '-' := by
  obtain ⟨hwhole, hfraction, hexponent⟩ := h
  exact hwhole.head?_append_ne _ '-' (by decide)

/-- A whole text is scanned just if it is in the grammar. -/
theorem scan_eq_some_nil_iff {literal : NumberLiteral} {chars : List Char} :
    scan chars = some (literal, []) ↔ literal.Spells chars := by
  constructor
  · intro h
    unfold scan at h
    split at h
    · obtain ⟨hsign, text, rfl, hparts⟩ := scanParts_sound h
      rw [List.append_nil]
      exact .minus hsign hparts
    · obtain ⟨hsign, text, rfl, hparts⟩ := scanParts_sound h
      rw [List.append_nil]
      exact .unsigned hsign hparts
  · rintro (⟨hsign, h⟩ | ⟨hsign, h⟩)
    · rw [scan.eq_2, ← hsign]
      · exact scanParts_eq h
      · rintro rest rfl
        exact h.head?_ne rfl
    · rw [scan, ← hsign]
      exact scanParts_eq h

end NumberLiteral

end GraphQLIR
