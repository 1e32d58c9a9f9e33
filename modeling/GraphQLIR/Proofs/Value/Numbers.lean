import GraphQLIR.Proofs.Number.Reader
import GraphQLIR.Proofs.Value.Conversion
/-!
# Numeric literals in JSON form

A literal becomes the integer that it denotes or a double, or it stays the text that it is. Which of
these it becomes is said for every text, also for one that is no literal of the language.
-/

namespace GraphQLIR

open Number

namespace Value

variable {text : String}

theorem intToJson_eq_num_iff {n : Int} :
    intToJson text = .num (.int n) ↔ Denotes text.toList n ∧ InRange n := by
  rw [intToJson]
  constructor
  · intro h
    split at h
    · rename_i hsigned
      cases h
      obtain ⟨hdenotes, hlow, hhigh⟩ := signed?_eq_some_iff.1 hsigned
      exact ⟨hdenotes, hlow, by omega⟩
    · split at h
      · rename_i hunsigned
        cases h
        obtain ⟨-, hdenotes, hhigh⟩ := unsigned?_eq_some_iff.1 hunsigned
        exact ⟨hdenotes, by omega, hhigh⟩
      · cases h
  · rintro ⟨hdenotes, hrange⟩
    split
    · rename_i hsigned
      rw [(signed?_eq_some_iff.1 hsigned).1.unique hdenotes]
    · rename_i hsigned
      obtain ⟨m, hunsigned, rfl⟩ :=
        exists_unsigned?_of_signed?_eq_none hsigned hdenotes hrange
      rw [hunsigned]

section

variable [NumberReader]

theorem floatToJson_eq_num_iff_read? {number : Number} :
    floatToJson text = .num number ↔
      (Binary64.ofText? text.toList).isSome ∧ NumberReader.read? text = some number := by
  rw [floatToJson]
  cases Binary64.ofText? text.toList with
  | none => simp
  | some double => cases NumberReader.read? text <;> simp

variable (laws : NumberReader.Laws)

include laws

/-- The reader of doubles stops what no double is near to, and nothing else of the grammar. -/
theorem floatToJson_eq_num_iff {number : Number} :
    floatToJson text = .num number ↔
      (∃ literal : NumberLiteral, literal.Spells text.toList ∧ literal.double?.isSome) ∧
        NumberReader.read? text = some number := by
  rw [floatToJson_eq_num_iff_read?]
  refine and_congr_left fun hread => ?_
  constructor
  · intro hdouble
    obtain ⟨literal, hspells⟩ := laws.spelled hread
    rw [Binary64.ofText?_eq_double? hspells] at hdouble
    exact ⟨literal, hspells, hdouble⟩
  · rintro ⟨literal, hspells, hdouble⟩
    rwa [Binary64.ofText?_eq_double? hspells]

theorem floatToJson_eq_int_iff {n : Int} :
    floatToJson text = .num (.int n) ↔
      (∃ literal : NumberLiteral, literal.Spells text.toList ∧ literal.IsInteger) ∧
        text ≠ "-0" ∧ Denotes text.toList n ∧ InRange n := by
  have hminusZero : text = "-0" ↔ text.toList = ['-', '0'] := by
    rw [← String.toList_inj]
    rfl
  rw [floatToJson_eq_num_iff laws, ne_eq, hminusZero]
  constructor
  · rintro ⟨-, hread⟩
    obtain ⟨literal, hspells, hexact⟩ := laws.integral hread
    rw [laws.exact hspells hexact] at hread
    cases hread
    refine ⟨⟨literal, hspells, hexact.isInteger⟩, ?_, hspells.denotes hexact.isInteger,
      hexact.inRange⟩
    rw [← hspells.isMinusZero_iff hexact.isInteger]
    exact hexact.not_isMinusZero
  · rintro ⟨⟨literal, hspells, hinteger⟩, hzero, hdenotes, hrange⟩
    obtain rfl := hdenotes.unique (hspells.denotes hinteger)
    rw [← hspells.isMinusZero_iff hinteger] at hzero
    have hexact : literal.IsExact := ⟨hinteger, hzero, hrange⟩
    exact ⟨⟨literal, hspells, hexact.isSome_double?⟩, laws.exact hspells hexact⟩

end

/-- What a text is in JSON as either kind of literal, whether it is one or not. An integer literal
may have a plus sign and leading zeros. Any other literal is a number only if the grammar has its
text, a double is near it and the reader takes it, and an integer just if it is written as one. What
is no number stays the text that it is. -/
structure ReadsNumbers [NumberReader] (text : String) : Prop where
  int_eq_num_iff (n : Int) :
    (int text).toJson = .num (.int n) ↔ Denotes text.toList n ∧ InRange n
  int_eq_str (h : ¬ ∃ n, Denotes text.toList n ∧ InRange n) : (int text).toJson = .str text
  float_eq_num_iff (number : Number) :
    (float text).toJson = .num number ↔
      (∃ literal : NumberLiteral, literal.Spells text.toList ∧ literal.double?.isSome) ∧
        NumberReader.read? text = some number
  float_eq_str (h : ¬ ∃ literal : NumberLiteral, literal.Spells text.toList) :
    (float text).toJson = .str text
  float_isNum_or_eq_str :
    (∃ number, (float text).toJson = .num number) ∨ (float text).toJson = .str text
  float_eq_int_iff (n : Int) :
    (float text).toJson = .num (.int n) ↔
      (∃ literal : NumberLiteral, literal.Spells text.toList ∧ literal.IsInteger) ∧
        text ≠ "-0" ∧ Denotes text.toList n ∧ InRange n
  int_of_float {n : Int} (h : (float text).toJson = .num (.int n)) :
    (int text).toJson = .num (.int n)

theorem readsNumbers [NumberReader] (laws : NumberReader.Laws) (text : String) :
    ReadsNumbers text where
  int_eq_num_iff n := by
    rw [toJson]
    exact intToJson_eq_num_iff
  int_eq_str h := by
    rw [toJson]
    refine (intToJson_num_or_str text).resolve_left ?_
    rintro ⟨n, hn⟩
    exact h ⟨n, intToJson_eq_num_iff.1 hn⟩
  float_eq_num_iff number := by
    rw [toJson]
    exact floatToJson_eq_num_iff laws
  float_eq_str h := by
    rw [toJson]
    refine (floatToJson_num_or_str text).resolve_left ?_
    rintro ⟨number, hnumber⟩
    obtain ⟨⟨literal, hspells, -⟩, -⟩ := (floatToJson_eq_num_iff laws).1 hnumber
    exact h ⟨literal, hspells⟩
  float_isNum_or_eq_str := by
    rw [toJson]
    exact floatToJson_num_or_str text
  float_eq_int_iff n := by
    rw [toJson]
    exact floatToJson_eq_int_iff laws
  int_of_float h := by
    simp only [toJson] at h ⊢
    exact intToJson_eq_num_iff.2 ((floatToJson_eq_int_iff laws).1 h).2.2

section

open NumberReader.Nearest

/-- A minus zero is an integer only as an integer literal, and a huge number not even a double. -/
theorem readsNumbers_minusZero :
    NumberReader.Laws ∧ (int "-0").toJson = .num (.int 0) ∧
      (float "-0").toJson = .num (.double (.zero true)) ∧
      (float "1e400").toJson = .str "1e400" ∧ ReadsNumbers "-0" ∧ ReadsNumbers "1e400" :=
  ⟨laws, rfl, rfl, rfl, readsNumbers laws "-0", readsNumbers laws "1e400"⟩

end

end Value

end GraphQLIR
