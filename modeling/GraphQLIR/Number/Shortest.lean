import GraphQLIR.Number.Binary64
/-!
# Shortest decimal text

A double is written with as few digits as still identify it: of the decimal grids of spacing
`10 ^ k` the coarsest one with a point that rounds to the double is chosen, and of its points the
nearest. Exponents from -5 to 15 are written positionally, with at least one digit after the
point; others in scientific form with a signed exponent.
-/

namespace GraphQLIR

namespace Binary64

/-- The point of the grid of spacing `10 ^ k` that rounds to this magnitude and is nearest to it,
as a multiple of the spacing. The magnitude and the two midpoints to its neighbours are doubled,
which makes them natural numbers, and scaled to the grid. The midpoints belong to the magnitude
if its significand is even. -/
def gridPoint? (ordinal : Nat) (k : Int) : Option Nat :=
  let spacing := Nat.pow 10 k.toNat * Nat.pow 2 1075
  let scale := Nat.pow 10 (-k).toNat
  let value := 2 * units ordinal * scale
  let low := (units (ordinal - 1) + units ordinal) * scale
  let high := (units ordinal + units (ordinal + 1)) * scale
  let inside (point : Nat) : Bool :=
    let p := point * spacing
    if ordinal % 2 = 0 then low ≤ p && p ≤ high else low < p && p < high
  let nearest := roundHalfEven value spacing
  let other := if nearest * spacing ≤ value then nearest + 1 else nearest - 1
  if inside nearest then some nearest
  else if inside other then some other
  else none

/-- The number of digits before the point, less the number of zeros after it for a magnitude
below one. -/
def pointPosition (ordinal : Nat) : Int :=
  let whole := units ordinal / Nat.pow 2 1074
  if whole = 0 then
    let shifted := units ordinal * Nat.pow 10 400 / Nat.pow 2 1074
    ((Nat.toDigits 10 shifted).length : Int) - 400
  else (Nat.toDigits 10 whole).length

/-- Digits and exponent of the shortest decimal that rounds to this magnitude. Seventeen digits
always suffice, so one of the eighteen grids has a point. -/
def shortest (ordinal : Nat) : Nat × Int :=
  let top := pointPosition ordinal
  let candidate? (i : Nat) : Option (Nat × Int) :=
    (gridPoint? ordinal (top - i)).map fun point => (point, top - i)
  ((List.range 18).findSome? candidate?).getD (0, 0)

/-- Writes `digits * 10 ^ k`. -/
def decimalText (digits : List Char) (k : Int) : List Char :=
  let point := digits.length + k
  if 0 ≤ k && point ≤ 16 then
    digits ++ List.replicate k.toNat '0' ++ ['.', '0']
  else if 0 < point && point ≤ 16 then
    digits.take point.toNat ++ '.' :: digits.drop point.toNat
  else if -5 < point && point ≤ 0 then
    ['0', '.'] ++ List.replicate (-point).toNat '0' ++ digits
  else
    let exponent := point - 1
    let sign := if exponent < 0 then '-' else '+'
    let mantissa := match digits with
      | first :: second :: rest => first :: '.' :: second :: rest
      | single => single
    mantissa ++ 'e' :: sign :: Nat.toDigits 10 exponent.natAbs

def chars (x : Binary64) : List Char :=
  let magnitude :=
    if x.ordinal.val = 0 then ['0', '.', '0']
    else
      let (digits, k) := shortest x.ordinal
      decimalText (Nat.toDigits 10 digits) k
  if x.negative then '-' :: magnitude else magnitude

def text (x : Binary64) : String :=
  String.ofList x.chars

end Binary64

end GraphQLIR
