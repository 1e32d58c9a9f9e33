import GraphQLIR.Number.Binary64
/-!
# Numbers and their literals

A number is an integer or a finite double, and the two are told apart even where their values
agree. Integers lie between `-2 ^ 63` and `2 ^ 64 - 1`. A text is read in four ways: as a signed
integer, as an unsigned one, as a finite double, and as a number of the JSON grammar. The last one
alone has no plus sign, no leading zeros, and digits on both sides of a point.
-/

namespace GraphQLIR

inductive Number
  | int (value : Int)
  | double (value : Binary64)
deriving DecidableEq, Repr

namespace Number

instance : BEq Number :=
  ⟨fun
    | .int a, .int b => a == b
    | .double a, .double b => a == b
    | _, _ => false⟩

/-- Whether an integer is in the range of 64-bit integers, signed or unsigned. -/
def fits (value : Int) : Bool :=
  -9223372036854775808 ≤ value && value ≤ 18446744073709551615

/-- The value of decimal digits, most significant first. -/
def digitsValue (digits : List Char) : Nat :=
  digits.foldl (fun value digit => 10 * value + (digit.toNat - '0'.toNat)) 0

/-- One or more ASCII digits. -/
def natural? (chars : List Char) : Option Nat :=
  if !chars.isEmpty && chars.all Char.isDigit then some (digitsValue chars) else none

/-- Whether a text starts with a minus sign, and the text after its sign, if it has one. -/
def splitSign (chars : List Char) : Bool × List Char :=
  match chars with
  | '-' :: rest => (true, rest)
  | '+' :: rest => (false, rest)
  | _ => (false, chars)

def withSign (negative : Bool) (magnitude : Nat) : Int :=
  if negative then -(magnitude : Int) else magnitude

/-- A signed 64-bit integer: an optional sign and one or more digits, leading zeros allowed. -/
def signed? (chars : List Char) : Option Int :=
  let (negative, digits) := splitSign chars
  ((natural? digits).map (withSign negative)).filter fun value =>
    -9223372036854775808 ≤ value && value ≤ 9223372036854775807

/-- An unsigned 64-bit integer: the same, but no minus sign, not even that of a zero. -/
def unsigned? (chars : List Char) : Option Nat :=
  let (negative, digits) := splitSign chars
  if negative then none
  else (natural? digits).filter fun value => value ≤ 18446744073709551615

end Number

/-- The parts of a number of the JSON grammar. An absent fraction or exponent is not the same as
a zero one: only a literal without both is an integer. -/
structure NumberLiteral where
  negative : Bool
  whole : List Char
  fraction : Option (List Char)
  exponent : Option Int
deriving DecidableEq, Repr

namespace NumberLiteral

/-- One or more digits, as many as there are. -/
def scanNumeral (chars : List Char) : Option (List Char × List Char) :=
  let (digits, rest) := chars.span Char.isDigit
  if digits.isEmpty then none else some (digits, rest)

/-- A single zero, or digits that start with another one. -/
def scanWhole (chars : List Char) : Option (List Char × List Char) :=
  match chars with
  | '0' :: rest => some (['0'], rest)
  | _ => scanNumeral chars

/-- A point and one or more digits, if there is a point. -/
def scanFraction (chars : List Char) : Option (Option (List Char) × List Char) :=
  match chars with
  | '.' :: rest => (scanNumeral rest).map (Prod.map some id)
  | _ => some (none, chars)

/-- An optional sign and one or more digits. -/
def scanInteger (chars : List Char) : Option (Int × List Char) :=
  let (negative, chars) := Number.splitSign chars
  (scanNumeral chars).map (Prod.map (Number.withSign negative ∘ Number.digitsValue) id)

/-- The mark and an integer, if there is a mark. -/
def scanExponent (chars : List Char) : Option (Option Int × List Char) :=
  match chars with
  | 'e' :: rest => (scanInteger rest).map (Prod.map some id)
  | 'E' :: rest => (scanInteger rest).map (Prod.map some id)
  | _ => some (none, chars)

/-- The parts that follow the sign. -/
def scanParts (negative : Bool) (chars : List Char) : Option (NumberLiteral × List Char) := do
  let (whole, chars) ← scanWhole chars
  let (fraction, chars) ← scanFraction chars
  let (exponent, chars) ← scanExponent chars
  return (⟨negative, whole, fraction, exponent⟩, chars)

/-- Reads a literal from the front of a text, as far as it goes. -/
def scan (chars : List Char) : Option (NumberLiteral × List Char) :=
  match chars with
  | '-' :: rest => scanParts true rest
  | _ => scanParts false chars

/-- The nearest double. There is none past the last finite double. -/
def double? (literal : NumberLiteral) : Option Binary64 :=
  let fraction := literal.fraction.getD []
  Binary64.ofDecimal? literal.negative (Number.digitsValue (literal.whole ++ fraction))
    (literal.exponent.getD 0 - fraction.length)

/-- An integer if it is written as one and in range, otherwise the nearest double. Minus zero is
a double, as no integer has its sign. -/
def value? (literal : NumberLiteral) : Option Number :=
  let magnitude := Number.digitsValue literal.whole
  let value := Number.withSign literal.negative magnitude
  if literal.fraction.isNone && literal.exponent.isNone && !(literal.negative && magnitude == 0) &&
      Number.fits value then
    some (.int value)
  else literal.double?.map .double

end NumberLiteral

namespace Number

/-- The number that a whole text denotes in the JSON grammar. -/
def ofLiteral? (chars : List Char) : Option Number :=
  match NumberLiteral.scan chars with
  | some (literal, []) => literal.value?
  | _ => none

end Number

namespace Binary64

/-- The digits after a point, if there is a point, and the text after them. -/
def splitFraction (chars : List Char) : List Char × List Char :=
  match chars with
  | '.' :: rest => rest.span Char.isDigit
  | _ => ([], chars)

/-- The finite double that a whole text denotes: an optional sign, digits that a point may precede,
follow or divide, and an optional exponent. -/
def ofText? (chars : List Char) : Option Binary64 :=
  let (negative, chars) := Number.splitSign chars
  let (whole, chars) := chars.span Char.isDigit
  let (fraction, chars) := splitFraction chars
  if whole.isEmpty && fraction.isEmpty then none
  else
    match NumberLiteral.scanExponent chars with
    | some (exponent, []) =>
      ofDecimal? negative (Number.digitsValue (whole ++ fraction))
        (exponent.getD 0 - fraction.length)
    | _ => none

end Binary64

end GraphQLIR
