import Qml.Number.Decimal

/-! # Shortest decimals

A value is written with the fewest digits that read back as it, and of those
with the digits nearest to it. For each number of digits there are only two
candidates, the decimals just below and just above the value. -/

namespace Qml.Binary64

def leadingZeros (numerator denominator : Nat) : Nat → Nat
  | 0 => 0
  | bound + 1 =>
    if denominator ≤ numerator * 10 then 0
    else leadingZeros (numerator * 10) denominator bound + 1

/-- The least power of ten above a positive ratio is `10 ^ magnitude`. -/
def magnitude (numerator denominator : Nat) : Int :=
  if denominator ≤ numerator then Decimal.digitCount (numerator / denominator)
  else -(leadingZeros numerator denominator 400)

def scaleDown (numerator denominator : Nat) : Int → Nat × Nat
  | .ofNat exponent => (numerator, denominator * Nat.pow 10 exponent)
  | .negSucc exponent => (numerator * Nat.pow 10 (exponent + 1), denominator)

/-- The decimal with `count` digits that reads back as the value, if there is
one; the nearer of two, and the greater of two equally near. Above a row of
nines stands the next power of ten, which has one digit. -/
def decimalOfLength? (value : Binary64) (count : Nat) : Option Decimal :=
  let numerator := value.units
  let denominator := Nat.pow 2 leastExponent
  let exponent := magnitude numerator denominator - count
  let (scaled, unit) := scaleDown numerator denominator exponent
  let below : Decimal := ⟨scaled / unit, exponent⟩
  let above : Decimal :=
    if scaled / unit + 1 = Nat.pow 10 count then ⟨1, exponent + count⟩
    else ⟨scaled / unit + 1, exponent⟩
  if below.toBinary64 = value ∧ (above.toBinary64 ≠ value ∨ 2 * (scaled % unit) < unit) then
    some below
  else if above.toBinary64 = value then
    some above
  else
    none

/-- Seventeen digits always suffice. -/
def shortest (value : Binary64) : Decimal :=
  ((List.range 17).findSome? fun count => value.decimalOfLength? (count + 1)).getD ⟨0, 0⟩

def text (value : Binary64) : String :=
  if value = infinity then "inf"
  else if value.units = 0 then "0"
  else value.shortest.positional

end Qml.Binary64
