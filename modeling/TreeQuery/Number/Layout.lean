import TreeQuery.Number.Decimal

/-!
# Number text

A finite number is written with its shortest digits. Near one it is written out positionally, and
farther away with a power of ten; a `Layout` says where the change is, whether a whole number keeps
a fraction, and whether a power shows its sign.
-/

namespace TreeQuery

/-- How numbers are written. -/
structure Layout where
  /-- Numbers `0.d₁d₂… * 10 ^ point` with `least < point ≤ greatest` are written positionally. -/
  least : Int
  /-- The greatest point that is written positionally. -/
  greatest : Int
  /-- Whether a whole number written positionally ends in `.0`. -/
  wholeFraction : Bool
  /-- Whether a power of ten shows its sign also when it is not negative. -/
  plus : Bool
  /-- Zero, by its sign. -/
  zero : Bool → List Char

namespace Layout

/-- The decimal writing of a natural number. -/
def natural (n : Nat) : List Char :=
  Nat.toDigits 10 n

/-- A power of ten. -/
def power (layout : Layout) (exponent : Int) : List Char :=
  let sign := if exponent < 0 then ['-'] else if layout.plus then ['+'] else []
  'e' :: sign ++ natural exponent.natAbs

/-- As many zeros as a count says, which must not be negative. -/
def zeros? (count : Int) : Option (List Char) :=
  if 0 ≤ count then some (List.replicate count.toNat '0') else none

/-- The digits before a place and those behind it. The place must not lie outside of them. -/
def split? (digits : List Char) (place : Int) : Option (List Char × List Char) :=
  if 0 ≤ place ∧ place ≤ digits.length then some (digits.splitAt place.toNat) else none

/-- A positive decimal, if all counts and places on the way are in range. -/
def magnitude? (layout : Layout) (decimal : Decimal) : Option (List Char) :=
  let digits := decimal.digits
  let point := decimal.point
  if digits.length ≤ point ∧ point ≤ layout.greatest then do
    let padding ← zeros? (point - digits.length)
    return digits ++ padding ++ (if layout.wholeFraction then ['.', '0'] else [])
  else if 0 < point ∧ point ≤ layout.greatest then do
    let (whole, fraction) ← split? digits point
    return whole ++ '.' :: fraction
  else if layout.least < point ∧ point ≤ 0 then do
    let gap ← zeros? (-point)
    return '0' :: '.' :: gap ++ digits
  else do
    let (first, rest) ← split? digits 1
    return first ++ (if rest.isEmpty then [] else '.' :: rest) ++ layout.power (point - 1)

/-- A positive decimal. -/
def magnitude (layout : Layout) (decimal : Decimal) : List Char :=
  (layout.magnitude? decimal).getD []

/-- A finite number. -/
def finite (layout : Layout) (negative : Bool) (significand : Nat) (exponent : Int)
    (canonical : Double.Canonical significand exponent) : List Char :=
  if significand = 0 then
    layout.zero negative
  else
    (if negative then ['-'] else []) ++
      layout.magnitude (Decimal.shortest significand exponent canonical)

end Layout

end TreeQuery
