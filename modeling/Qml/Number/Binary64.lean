/-! # Double-precision numbers

Number literals denote non-negative double-precision values, kept as their 64
bits: eleven bits of exponent above fifty-two bits of fraction. Reading a
literal means rounding an exact ratio to the nearest such value. -/

namespace Qml

structure Binary64 where
  bits : UInt64
deriving DecidableEq

/-- The whole number nearest to `numerator / denominator`; of two equally near
ones the even one. -/
def roundRatio (numerator denominator : Nat) : Nat :=
  let quotient := numerator / denominator
  let twice := 2 * (numerator % denominator)
  if twice < denominator then quotient
  else if twice = denominator ∧ quotient % 2 = 0 then quotient
  else quotient + 1

namespace Binary64

/-- The least positive value is `2 ^ (-1074)`; every finite value is a multiple
of it. -/
def leastExponent : Nat := 1074

def fractionCount : Nat := 0x10000000000000

def infinityBits : Nat := 0x7ff * fractionCount

def infinity : Binary64 := ⟨UInt64.ofNat infinityBits⟩

/-- The value nearest to a ratio, ties to even. The ratio is counted in units
of the least positive value; `shift` is how far the unit must grow for the
count to fit fifty-three bits. Since the leading bit of the count adds one to
the exponent field, the bits are just a sum, also where rounding carries. -/
def ofRatio (numerator denominator : Nat) : Binary64 :=
  let scaled := numerator * Nat.pow 2 leastExponent
  let shift := (scaled / denominator).log2 - 52
  let bits := shift * fractionCount + roundRatio scaled (denominator * Nat.pow 2 shift)
  if bits < infinityBits then ⟨UInt64.ofNat bits⟩ else infinity

def ofNat (value : Nat) : Binary64 := ofRatio value 1

/-- The exponent field of a finite value, counted from that of the values below
`2 ^ (-1022)`. -/
def shift (value : Binary64) : Nat :=
  value.bits.toNat / fractionCount - 1

def units (value : Binary64) : Nat :=
  (value.bits.toNat - value.shift * fractionCount) * Nat.pow 2 value.shift

end Binary64

end Qml
