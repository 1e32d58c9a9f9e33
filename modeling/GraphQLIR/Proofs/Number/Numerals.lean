import GraphQLIR.Number.Literal
import Mathlib.Data.List.Basic
import Mathlib.Data.Nat.Digits.Defs
/-!
# Numerals

The integer that an optional sign and decimal digits denote, and which of them the readers of signed
and of unsigned 64-bit integers accept. Neither accepts all integers in range, but together they do.
-/

namespace GraphQLIR.Number

/-- One or more ASCII digits. -/
structure IsNumeral (digits : List Char) : Prop where
  ne_nil : digits ≠ []
  isDigit : ∀ digit ∈ digits, digit.isDigit

/-- The value in base ten, most significant digit first. -/
def decimal (digits : List Char) : Nat :=
  Nat.ofDigits 10 (digits.reverse.map fun digit => digit.toNat - '0'.toNat)

theorem digitsValue_eq_decimal (digits : List Char) : digitsValue digits = decimal digits := by
  rw [digitsValue, decimal, Nat.ofDigits_eq_foldr, List.map_reverse, List.foldr_reverse,
    List.foldl_map]
  simp only [Nat.cast_id, Nat.add_comm]

theorem natural?_eq_some_iff {chars : List Char} {n : Nat} :
    natural? chars = some n ↔ IsNumeral chars ∧ decimal chars = n := by
  have hnumeral : (!chars.isEmpty && chars.all Char.isDigit) = true ↔ IsNumeral chars := by
    rw [Bool.and_eq_true, Bool.not_eq_true', List.isEmpty_eq_false_iff, List.all_eq_true]
    exact ⟨fun ⟨hne, hall⟩ => ⟨hne, hall⟩, fun ⟨hne, hall⟩ => ⟨hne, hall⟩⟩
  rw [natural?, Option.ite_none_right_eq_some, hnumeral, digitsValue_eq_decimal, Option.some.injEq]

/-- An optional sign and a numeral denote an integer. -/
inductive Denotes : List Char → Int → Prop
  | unsigned {digits : List Char} (h : IsNumeral digits) : Denotes digits (decimal digits)
  | plus {digits : List Char} (h : IsNumeral digits) : Denotes ('+' :: digits) (decimal digits)
  | minus {digits : List Char} (h : IsNumeral digits) : Denotes ('-' :: digits) (-decimal digits)

theorem IsNumeral.head?_append_ne {digits : List Char} (h : IsNumeral digits) (rest : List Char)
    (mark : Char) (hmark : mark.isDigit = false) : (digits ++ rest).head? ≠ some mark := by
  rw [List.head?_append_of_ne_nil digits h.ne_nil]
  intro hhead
  rw [h.isDigit mark (List.mem_of_head? hhead)] at hmark
  cases hmark

@[simp]
theorem withSign_false (magnitude : Nat) : withSign false magnitude = magnitude := rfl

@[simp]
theorem withSign_true (magnitude : Nat) : withSign true magnitude = -magnitude := rfl

theorem splitSign_append_of_isNumeral {digits : List Char} (h : IsNumeral digits)
    (rest : List Char) : splitSign (digits ++ rest) = (false, digits ++ rest) := by
  have hminus := h.head?_append_ne rest '-' (by decide)
  have hplus := h.head?_append_ne rest '+' (by decide)
  generalize digits ++ rest = chars at hminus hplus
  fun_cases splitSign chars with
  | case1 => exact absurd rfl hminus
  | case2 => exact absurd rfl hplus
  | case3 => rfl

theorem splitSign_of_isNumeral {digits : List Char} (h : IsNumeral digits) :
    splitSign digits = (false, digits) := by
  simpa using splitSign_append_of_isNumeral h []

/-- The sign has to be followed by a numeral. -/
theorem denotes_iff_splitSign {chars : List Char} {n : Int} :
    Denotes chars n ↔
      IsNumeral (splitSign chars).2 ∧
        n = withSign (splitSign chars).1 (decimal (splitSign chars).2) := by
  constructor
  · rintro (h | h | h)
    · rw [splitSign_of_isNumeral h]
      exact ⟨h, rfl⟩
    · exact ⟨h, rfl⟩
    · exact ⟨h, rfl⟩
  · fun_cases splitSign chars with
    | case1 digits =>
      rintro ⟨h, rfl⟩
      exact .minus h
    | case2 digits =>
      rintro ⟨h, rfl⟩
      exact .plus h
    | case3 =>
      rintro ⟨h, rfl⟩
      exact .unsigned h

/-- A minus sign makes no integer positive. -/
theorem Denotes.splitSign_fst_of_pos {chars : List Char} {n : Int} (h : Denotes chars n)
    (hpos : 0 < n) : (splitSign chars).1 = false := by
  rw [Bool.eq_false_iff]
  intro hsign
  have hn := (denotes_iff_splitSign.1 h).2
  rw [hsign, withSign_true] at hn
  omega

theorem Denotes.unique {chars : List Char} {m n : Int} (hm : Denotes chars m)
    (hn : Denotes chars n) : m = n := by
  rw [(denotes_iff_splitSign.1 hm).2, (denotes_iff_splitSign.1 hn).2]

/-- The range of 64-bit integers, signed or unsigned. -/
def InRange (n : Int) : Prop :=
  -2 ^ 63 ≤ n ∧ n ≤ 2 ^ 64 - 1

theorem fits_iff {n : Int} : fits n ↔ InRange n := by
  rw [fits, InRange, Bool.and_eq_true, decide_eq_true_eq, decide_eq_true_eq]
  norm_num

theorem signed?_eq_some_iff {chars : List Char} {n : Int} :
    signed? chars = some n ↔ Denotes chars n ∧ -2 ^ 63 ≤ n ∧ n ≤ 2 ^ 63 - 1 := by
  have hvalue : (natural? (splitSign chars).2).map (withSign (splitSign chars).1) = some n ↔
      Denotes chars n := by
    simp only [Option.map_eq_some_iff, natural?_eq_some_iff, denotes_iff_splitSign]
    constructor
    · rintro ⟨_, ⟨h, rfl⟩, rfl⟩
      exact ⟨h, rfl⟩
    · rintro ⟨h, rfl⟩
      exact ⟨_, ⟨h, rfl⟩, rfl⟩
  rw [signed?, Option.filter_eq_some_iff, hvalue, Bool.and_eq_true, decide_eq_true_eq,
    decide_eq_true_eq]
  norm_num

/-- There is no unsigned reading of a text with a minus sign, not even of a minus zero. -/
theorem unsigned?_eq_some_iff {chars : List Char} {n : Nat} :
    unsigned? chars = some n ↔
      (splitSign chars).1 = false ∧ Denotes chars n ∧ (n : Int) ≤ 2 ^ 64 - 1 := by
  rw [unsigned?, Option.ite_none_left_eq_some, Bool.not_eq_true, denotes_iff_splitSign]
  refine and_congr_right fun hsign => ?_
  rw [hsign, Option.filter_eq_some_iff, natural?_eq_some_iff, decide_eq_true_eq, withSign_false,
    Int.natCast_inj, @eq_comm _ n]
  exact and_congr_right fun _ => by norm_num

/-- What the signed reader rejects in range is positive, and the unsigned reader accepts it. -/
theorem exists_unsigned?_of_signed?_eq_none {chars : List Char} {n : Int}
    (hsigned : signed? chars = none) (h : Denotes chars n) (hrange : InRange n) :
    ∃ m : Nat, unsigned? chars = some m ∧ (m : Int) = n := by
  have hlarge : ¬ n ≤ 2 ^ 63 - 1 := by
    intro hle
    rw [signed?_eq_some_iff.2 ⟨h, hrange.1, hle⟩] at hsigned
    cases hsigned
  obtain ⟨m, rfl⟩ := Int.eq_ofNat_of_zero_le (a := n) (by omega)
  exact ⟨m, unsigned?_eq_some_iff.2 ⟨h.splitSign_fst_of_pos (by omega), h, hrange.2⟩, rfl⟩

end GraphQLIR.Number
