import GraphQLIR.Number.Binary64
import Mathlib.Algebra.Order.Ring.Nat
/-!
# The range of doubles

Rounding adds at most one unit, so a quotient that is far below the last finite double has a nearest
one. All integers of 64 bits are.
-/

namespace GraphQLIR.Binary64

theorem roundHalfEven_le (num den : Nat) : roundHalfEven num den ≤ num / den + 1 := by
  rw [roundHalfEven]
  split
  · omega
  · split <;> omega

/-- A quotient far below the last finite double has a nearest one. -/
theorem isSome_ofUnits? {num den : Nat} (negative : Bool) (h : (num / den).log2 < 2000) :
    (ofUnits? negative num den).isSome := by
  -- the quotient that is rounded has at most 53 bits
  have hshort : num / (den * Nat.pow 2 ((num / den).log2 - 52)) < 2 ^ 53 := by
    rw [← Nat.div_div_eq_div_mul]
    refine Nat.div_lt_of_lt_mul (lt_of_lt_of_le Nat.lt_log2_self ?_)
    change _ ≤ 2 ^ _ * _
    rw [← pow_add]
    exact Nat.pow_le_pow_right (by decide) (by omega)
  have hround := roundHalfEven_le num (den * Nat.pow 2 ((num / den).log2 - 52))
  rw [ofUnits?, dif_pos]
  · rfl
  · change _ * 2 ^ 52 + _ < 2047 * 2 ^ 52
    omega

theorem log2_mul_pow_lt {n bits : Nat} (h : n < 2 ^ bits) (hzero : n ≠ 0) (exponent : Nat) :
    (n * Nat.pow 2 exponent).log2 < bits + exponent := by
  rw [Nat.pow_eq, Nat.log2_lt (Nat.mul_ne_zero hzero (pow_ne_zero _ two_ne_zero)), pow_add]
  exact Nat.mul_lt_mul_of_pos_right h (Nat.two_pow_pos exponent)

/-- Every integer in range has a nearest double. -/
theorem isSome_ofDecimal? {digits : Nat} (negative : Bool) (h : digits < 2 ^ 64) :
    (ofDecimal? negative digits 0).isSome := by
  rw [ofDecimal?]
  split
  · rfl
  rename_i hzero
  have hone : Nat.pow 10 (0 : Int).toNat = 1 := rfl
  have hone' : Nat.pow 10 (-0 : Int).toNat = 1 := rfl
  rw [if_neg (by decide), if_neg (by omega)]
  refine isSome_ofUnits? negative ?_
  rw [hone, hone', Nat.div_one, Nat.mul_one digits]
  generalize hexponent : 1074 = exponent
  have hlog := log2_mul_pow_lt h hzero exponent
  omega

end GraphQLIR.Binary64
