import TreeQuery.Number.Double

/-!
# Decimals

Reading: a decimal `digits * 10 ^ exponent` is the double nearest to its exact value. Writing: a
positive double has a shortest decimal that reads back as it, the nearest to it of that length.
-/

namespace TreeQuery

attribute [local instance] corePower

namespace Double

/-- The number nearest to `digits * 10 ^ exponent`. Beyond the decades of binary64 the answer is an
infinity or a zero, whatever the digits. -/
def ofDecimal (negative : Bool) (digits : Nat) (exponent : Int) : Double :=
  let order : Int := (Nat.toDigits 10 digits).length + exponent
  if digits = 0 then
    zero negative
  else if 310 < order then
    .infinity negative
  else if order < -330 then
    zero negative
  else
    ofRatio negative (digits * 10 ^ exponent.toNat) (10 ^ (-exponent).toNat)

end Double

/-- The decimal fraction `0.d₁d₂… * 10 ^ point`. -/
structure Decimal where
  /-- The digits after the point, most significant first. -/
  digits : List Char
  /-- How far right the point moves. -/
  point : Int
deriving DecidableEq, Repr

namespace Decimal

/-- `digits * 10 ^ exponent` without its trailing zeros. -/
def ofScaled (digits : Nat) (exponent : Int) : Decimal :=
  let written := Nat.toDigits 10 digits
  { digits := (written.reverse.dropWhile (· == '0')).reverse
    point := written.length + exponent }

/-- The number `k` with `10 ^ (k - 1) ≤ n / d < 10 ^ k`, for positive `n` and `d`. -/
def decade (n d : Nat) : Int :=
  if d ≤ n then
    (Nat.toDigits 10 (n / d)).length
  else
    let places := (Nat.toDigits 10 (d / n)).length
    if d ≤ n * 10 ^ (places - 1) then 2 - places else 1 - places

/-- The multiple of `10 ^ unit` that reads back as `x` and is nearest to `n / d`, the value of `x`;
only the two neighbours of the value are candidates, and a tie goes to the even one. -/
def onGrid? (x : Double) (n d : Nat) (unit : Int) : Option Nat :=
  let top := n * 10 ^ (-unit).toNat
  let bottom := d * 10 ^ unit.toNat
  let below := top / bottom
  let above := below + 1
  let middle := Double.nearest top bottom
  let readsBack (digits : Nat) : Bool := Double.ofDecimal false digits unit = x
  if readsBack middle then some middle
  else if readsBack below then some below
  else if readsBack above then some above
  else none

/-- A decimal on the coarsest grid, down to seventeen digits, that has one that reads back as
`x = n / d`. -/
def search? (x : Double) (n d : Nat) : Option Decimal :=
  (List.range 17).findSome? fun (i : Nat) =>
    let unit : Int := decade n d - (i + 1)
    (onGrid? x n d unit).map fun digits => ofScaled digits unit

/-- All digits of `significand * 2 ^ exponent`. -/
def exact (significand : Nat) (exponent : Int) : Decimal :=
  ofScaled (significand * 2 ^ exponent.toNat * 5 ^ (-exponent).toNat) (min exponent 0)

/-- The shortest decimal that reads back as the magnitude of a finite number, the nearest to it of
that length. -/
def shortest (significand : Nat) (exponent : Int)
    (canonical : Double.Canonical significand exponent) : Decimal :=
  (search? (.finite false significand exponent canonical)
    (significand * 2 ^ exponent.toNat) (2 ^ (-exponent).toNat)).getD (exact significand exponent)

end Decimal

end TreeQuery
