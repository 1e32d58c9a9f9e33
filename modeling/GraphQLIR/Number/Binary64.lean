/-!
# Finite double-precision numbers

The non-negative finite doubles, listed in increasing order, are numbered from zero. A double is
its place in that list and a sign, so each one has a single representation. All of them are
multiples of `2 ^ -1074`; `units` gives the multiple.
-/

namespace GraphQLIR

/-- A finite double: its sign, which zero has too, and its place among the magnitudes. -/
structure Binary64 where
  negative : Bool
  ordinal : Fin (2047 * Nat.pow 2 52)
deriving DecidableEq, Repr

namespace Binary64

/-- The magnitude at a place of the list, in units of `2 ^ -1074`. The first `2 ^ 52` places are
evenly spaced, and from there on the spacing doubles after every `2 ^ 52` places. -/
def units (ordinal : Nat) : Nat :=
  if ordinal < Nat.pow 2 52 then ordinal
  else
    let significand := Nat.pow 2 52 + ordinal % Nat.pow 2 52
    significand * Nat.pow 2 (ordinal / Nat.pow 2 52 - 1)

def zero (negative : Bool) : Binary64 := ⟨negative, ⟨0, by decide⟩⟩

/-- The numeric comparison, in which the two zeros are equal. -/
instance : BEq Binary64 :=
  ⟨fun a b => a.ordinal == b.ordinal && (a.negative == b.negative || a.ordinal.val == 0)⟩

/-- The nearest natural number to `num / den`, the even one of two equally near. -/
def roundHalfEven (num den : Nat) : Nat :=
  let below := num / den
  let excess := 2 * (num % den)
  if excess < den then below
  else if den < excess then below + 1
  else below + below % 2

/-- The double nearest to `num / den` units, the one with an even significand of two equally
near. There is none if that would lie past the last finite double. -/
def ofUnits? (negative : Bool) (num den : Nat) : Option Binary64 :=
  let shift := (num / den).log2 - 52
  let ordinal := shift * Nat.pow 2 52 + roundHalfEven num (den * Nat.pow 2 shift)
  if h : ordinal < 2047 * Nat.pow 2 52 then some ⟨negative, ⟨ordinal, h⟩⟩ else none

/-- The double nearest to `digits * 10 ^ exponent`. Exponents for which the answer is clear from
the number of digits are decided without computing the power. -/
def ofDecimal? (negative : Bool) (digits : Nat) (exponent : Int) : Option Binary64 :=
  if digits = 0 then some (zero negative)
  else if 309 ≤ exponent then none
  else if (Nat.toDigits 10 digits).length + exponent ≤ -324 then some (zero negative)
  else
    ofUnits? negative (digits * Nat.pow 10 exponent.toNat * Nat.pow 2 1074)
      (Nat.pow 10 (-exponent).toNat)

end Binary64

end GraphQLIR
