import TreeQuery.Number.Arithmetic

/-!
# Words of numbers

A number becomes a word of thirty-two bits through its integer part, which is reduced modulo
`2 ^ 32` as a number and read off as an unsigned integer.
-/

namespace TreeQuery.Double

attribute [local instance] corePower

/-- The number without its fraction. A zero keeps the sign. -/
def truncate : Double → Double
  | .finite negative significand exponent _ =>
      ofRatio negative (significand * 2 ^ exponent.toNat / 2 ^ (-exponent).toNat) 1
  | x => x

/-- The remainder, moved up by the divisor where it is below zero. -/
def euclideanRem (x y : Double) : Double :=
  let remainder := x.rem y
  if remainder.compare? (zero false) = some .lt then remainder.add y.abs else remainder

/-- The integer part as an unsigned word: the nearest word where it is not one, and zero for
not-a-number. -/
def saturate : Double → BitVec 32
  | .infinity false => BitVec.allOnes 32
  | x => BitVec.ofNat 32 (min (x.truncate?.getD 0).toNat (2 ^ (32 : Nat) - 1))

/-- The number of words. -/
def wordCount : Double :=
  ofNat (2 ^ (32 : Nat))

/-- The low bits of the integer part in two's complement; zero when there is no integer part. -/
def word (x : Double) : BitVec 32 :=
  if x.isFinite && !x.isZero then (x.truncate.euclideanRem wordCount).saturate else 0

end TreeQuery.Double
