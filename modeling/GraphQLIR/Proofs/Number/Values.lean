import GraphQLIR.Proofs.Number.Doubles
import GraphQLIR.Proofs.Number.Grammar
/-!
# Values of the JSON grammar

A text of the grammar is an integer if it is written as one, in range and not minus zero, and the
nearest double otherwise. The more liberal reader of doubles finds the same double in it.
-/

namespace GraphQLIR

namespace NumberLiteral

open Number

theorem IsWhole.eq_zero_of_decimal {digits : List Char} (h : IsWhole digits)
    (hzero : decimal digits = 0) : digits = ['0'] := by
  apply h.eq_zero_of_head?
  obtain ⟨first, more, rfl⟩ := List.exists_cons_of_ne_nil h.ne_nil
  have hvalue : first.toNat - '0'.toNat = 0 :=
    Nat.digits_zero_of_eq_zero (by decide) hzero _ (by simp)
  have hdigit : '0'.toNat ≤ first.toNat := by
    have hdigit := h.isDigit first List.mem_cons_self
    rw [Char.isDigit, Bool.and_eq_true, decide_eq_true_eq] at hdigit
    exact hdigit.1
  rw [List.head?_cons, Option.some.injEq, ← Char.toNat_inj]
  omega

/-- Neither a fraction nor an exponent. -/
def IsInteger (literal : NumberLiteral) : Prop :=
  literal.fraction = none ∧ literal.exponent = none

def IsMinusZero (literal : NumberLiteral) : Prop :=
  literal.negative = true ∧ decimal literal.whole = 0

/-- The value without fraction and exponent. -/
def integer (literal : NumberLiteral) : Int :=
  withSign literal.negative (decimal literal.whole)

section Integers

variable {literal : NumberLiteral} {chars : List Char}

theorem SpellsParts.eq_whole (h : literal.SpellsParts chars) (hinteger : literal.IsInteger) :
    chars = literal.whole ∧ IsWhole literal.whole := by
  obtain ⟨hwhole, hfraction, hexponent⟩ := h
  rw [hinteger.1] at hfraction
  rw [hinteger.2] at hexponent
  cases hfraction
  cases hexponent
  exact ⟨List.append_nil _, hwhole⟩

theorem Spells.denotes (h : literal.Spells chars) (hinteger : literal.IsInteger) :
    Denotes chars literal.integer := by
  rw [integer]
  cases h with
  | unsigned hsign h =>
    obtain ⟨rfl, hwhole⟩ := h.eq_whole hinteger
    rw [hsign]
    exact .unsigned hwhole.toIsNumeral
  | minus hsign h =>
    obtain ⟨rfl, hwhole⟩ := h.eq_whole hinteger
    rw [hsign]
    exact .minus hwhole.toIsNumeral

theorem Spells.isMinusZero_iff (h : literal.Spells chars) (hinteger : literal.IsInteger) :
    literal.IsMinusZero ↔ chars = ['-', '0'] := by
  cases h with
  | unsigned hsign h =>
    constructor
    · rintro ⟨hminus, -⟩
      rw [hsign] at hminus
      cases hminus
    · rintro rfl
      exact absurd rfl h.head?_ne
  | minus hsign h =>
    obtain ⟨rfl, hwhole⟩ := h.eq_whole hinteger
    rw [IsMinusZero, List.cons_inj_right]
    constructor
    · rintro ⟨-, hzero⟩
      exact hwhole.eq_zero_of_decimal hzero
    · intro hzero
      rw [hzero]
      exact ⟨hsign, by decide⟩

/-- The literal is an integer in range. Minus zero is none. -/
structure IsExact (literal : NumberLiteral) : Prop where
  isInteger : literal.IsInteger
  not_isMinusZero : ¬ literal.IsMinusZero
  inRange : InRange literal.integer

theorem isExact_iff :
    literal.IsExact ↔
      (literal.fraction.isNone && literal.exponent.isNone &&
        !(literal.negative && digitsValue literal.whole == 0) &&
          fits (withSign literal.negative (digitsValue literal.whole))) = true := by
  simp only [Bool.and_eq_true, Bool.not_eq_true', Option.isNone_iff_eq_none, fits_iff,
    digitsValue_eq_decimal, ← Bool.not_eq_true, beq_iff_eq]
  constructor
  · rintro ⟨hinteger, hzero, hrange⟩
    exact ⟨⟨hinteger, hzero⟩, hrange⟩
  · rintro ⟨⟨hinteger, hzero⟩, hrange⟩
    exact ⟨hinteger, hzero, hrange⟩

theorem IsExact.value?_eq (h : literal.IsExact) :
    literal.value? = some (.int literal.integer) := by
  rw [value?, if_pos (isExact_iff.1 h), digitsValue_eq_decimal]
  rfl

theorem value?_eq_map_double? (h : ¬ literal.IsExact) :
    literal.value? = literal.double?.map .double := by
  rw [value?, if_neg (mt isExact_iff.2 h)]

/-- No double stands for an integer, and no integer for a double. -/
theorem value?_eq_int_iff {n : Int} :
    literal.value? = some (.int n) ↔ literal.IsExact ∧ literal.integer = n := by
  constructor
  · intro h
    by_cases hexact : literal.IsExact
    · rw [hexact.value?_eq] at h
      cases h
      exact ⟨hexact, rfl⟩
    · rw [value?_eq_map_double? hexact, Option.map_eq_some_iff] at h
      obtain ⟨_, -, ⟨⟩⟩ := h
  · rintro ⟨hexact, rfl⟩
    exact hexact.value?_eq

theorem IsExact.isSome_double? (h : literal.IsExact) : literal.double?.isSome := by
  have hmagnitude : decimal literal.whole < 2 ^ 64 := by
    have hrange := h.inRange
    rw [integer, InRange] at hrange
    cases hsign : literal.negative with
    | false =>
      rw [hsign, withSign_false] at hrange
      omega
    | true =>
      rw [hsign, withSign_true] at hrange
      omega
  rw [double?, h.isInteger.1, h.isInteger.2, digitsValue_eq_decimal]
  simpa using Binary64.isSome_ofDecimal? literal.negative hmagnitude

end Integers

end NumberLiteral

namespace Number

theorem ofLiteral?_eq_some_iff {chars : List Char} {number : Number} :
    ofLiteral? chars = some number ↔
      ∃ literal : NumberLiteral, literal.Spells chars ∧ literal.value? = some number := by
  simp only [← NumberLiteral.scan_eq_some_nil_iff]
  unfold ofLiteral?
  constructor
  · intro h
    split at h
    · exact ⟨_, ‹_›, h⟩
    · cases h
  · rintro ⟨literal, hscan, hvalue⟩
    rw [hscan]
    exact hvalue

end Number

namespace Binary64

open NumberLiteral Number

theorem splitFraction_append {fraction : Option (List Char)} {exponent : Option Int}
    {text more : List Char} (h : SpellsFraction fraction text)
    (hmore : SpellsExponent exponent more) :
    splitFraction (text ++ more) = (fraction.getD [], more) := by
  cases h with
  | absent => cases hmore <;> rfl
  | present h => exact span_isDigit_eq_iff.2 ⟨rfl, h.isDigit, hmore.endsDigits⟩

theorem ofText?_eq_of_splitSign {literal : NumberLiteral} {chars rest : List Char}
    (hsign : splitSign chars = (literal.negative, rest)) (h : literal.SpellsParts rest) :
    ofText? chars = literal.double? := by
  obtain ⟨hwhole, hfraction, hexponent⟩ := h
  have hspan := span_isDigit_eq_iff.2
    ⟨rfl, hwhole.isDigit, hfraction.endsDigits_append hexponent.endsDigits⟩
  have hnonempty : literal.whole.isEmpty = false := List.isEmpty_eq_false_iff.2 hwhole.ne_nil
  rw [ofText?, hsign]
  simp only [hspan, splitFraction_append hfraction hexponent, hnonempty, Bool.false_and,
    Bool.false_eq_true, if_false, scanExponent_eq hexponent]
  rfl

/-- A sign and digits that the grammar allows are read alike by the reader of doubles. -/
theorem ofText?_eq_double? {literal : NumberLiteral} {chars : List Char}
    (h : literal.Spells chars) : ofText? chars = literal.double? := by
  cases h with
  | unsigned hsign h =>
    refine ofText?_eq_of_splitSign ?_ h
    obtain ⟨hwhole, -, -⟩ := h
    rw [hsign]
    exact splitSign_append_of_isNumeral hwhole.toIsNumeral _
  | minus hsign h => exact ofText?_eq_of_splitSign (by rw [hsign]; rfl) h

end Binary64

end GraphQLIR
