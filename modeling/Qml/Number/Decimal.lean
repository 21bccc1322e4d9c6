import Qml.Number.Binary64

/-! # Decimal numbers

A decimal is a whole number with a power of ten. Literals are read through
decimals, and diagnostics write values as decimals without an exponent. -/

namespace Qml

/-- The number `digits * 10 ^ exponent`. -/
structure Decimal where
  digits : Nat
  exponent : Int
deriving DecidableEq

namespace Decimal

def wholeNumber (digits : List Char) : Nat :=
  digits.foldl (fun value digit => value * 10 + (digit.toNat - '0'.toNat)) 0

def digitCount (value : Nat) : Nat :=
  if value = 0 then 0 else (Nat.toDigits 10 value).length

/-- The nearest double-precision value. Numbers too large or too small for the
format are told apart by their number of digits alone, so that no power of ten
is formed for them. -/
def toBinary64 (decimal : Decimal) : Binary64 :=
  let magnitude := digitCount decimal.digits + decimal.exponent
  if decimal.digits = 0 then .ofNat 0
  else if 310 ≤ magnitude then .infinity
  else if magnitude ≤ -330 then .ofNat 0
  else
    match decimal.exponent with
    | .ofNat exponent => .ofNat (decimal.digits * Nat.pow 10 exponent)
    | .negSucc exponent => .ofRatio decimal.digits (Nat.pow 10 (exponent + 1))

/-- The number without an exponent: zeros are filled in on either side of the
digits, and a point stands before the fraction, if any. -/
def positional (decimal : Decimal) : String :=
  let digits := Nat.toDigits 10 decimal.digits
  match decimal.exponent with
  | .ofNat exponent => String.ofList (digits ++ List.replicate exponent '0')
  | .negSucc exponent =>
    let places := exponent + 1
    let padded := List.replicate (places + 1 - digits.length) '0' ++ digits
    let whole := padded.length - places
    String.ofList (padded.take whole ++ '.' :: padded.drop whole)

end Decimal

end Qml
