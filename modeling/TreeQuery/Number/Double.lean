/-!
# Double-precision numbers

A number is not-a-number, a signed infinity, or a signed integer significand times a power of two.
Each finite value has one significand and exponent, so equality of terms is equality of values with
the two zeros kept apart and every not-a-number identified.
-/

namespace TreeQuery

/-- Powers as the core library has them, whatever other instances are in scope. -/
@[reducible] def corePower {α : Type} [NatPow α] : Pow α Nat :=
  instPowNat

attribute [local instance] corePower

namespace Double

/-- The significands and exponents that binary64 can hold, each value in one way. -/
def Canonical (significand : Nat) (exponent : Int) : Prop :=
  significand < 2 ^ (53 : Nat) ∧ -1074 ≤ exponent ∧ exponent ≤ 971 ∧
    (2 ^ (52 : Nat) ≤ significand ∨ exponent = -1074)

instance (significand : Nat) (exponent : Int) : Decidable (Canonical significand exponent) := by
  unfold Canonical
  infer_instance

end Double

/-- A binary64 number. -/
inductive Double where
  /-- Not a number. -/
  | nan
  /-- An infinity of the given sign. -/
  | infinity (negative : Bool)
  /-- `±significand * 2 ^ exponent`. -/
  | finite (negative : Bool) (significand : Nat) (exponent : Int)
      (canonical : Double.Canonical significand exponent)
deriving DecidableEq

namespace Double

/-- Zero of the given sign. -/
def zero (negative : Bool) : Double :=
  .finite negative 0 (-1074) (by decide)

instance : Inhabited Double := ⟨zero false⟩

/-- A significand and exponent as a number; what binary64 cannot hold has overflowed. -/
def pack (negative : Bool) (significand : Nat) (exponent : Int) : Double :=
  if canonical : Canonical significand exponent then
    .finite negative significand exponent canonical
  else
    .infinity negative

/-- The integer nearest to `n / d`; a half goes to the even neighbour. -/
def nearest (n d : Nat) : Nat :=
  if 2 * (n % d) < d ∨ (2 * (n % d) = d ∧ n / d % 2 = 0) then n / d else n / d + 1

/-- The greatest `k` with `2 ^ k ≤ n / d`, for positive `n` and `d`. -/
def binaryOrder (n d : Nat) : Int :=
  let k : Int := (n.log2 : Int) - d.log2
  if d * 2 ^ k.toNat ≤ n * 2 ^ (-k).toNat then k else k - 1

/-- The exponent of the last bit that binary64 keeps of `n / d`. -/
def lastPlace (n d : Nat) : Int :=
  max (binaryOrder n d - 52) (-1074)

/-- The number nearest to `n / d` with the given sign; a tie goes to the even significand. -/
def ofRatio (negative : Bool) (n d : Nat) : Double :=
  if n = 0 then
    zero negative
  else
    let place := lastPlace n d
    let significand := nearest (n * 2 ^ (-place).toNat) (d * 2 ^ place.toNat)
    if significand = 2 ^ (53 : Nat) then
      pack negative (2 ^ (52 : Nat)) (place + 1)
    else
      pack negative significand place

/-- The number nearest to `significand * 2 ^ exponent`. -/
def ofScaled (negative : Bool) (significand : Nat) (exponent : Int) : Double :=
  ofRatio negative (significand * 2 ^ exponent.toNat) (2 ^ (-exponent).toNat)

/-- The number nearest to an integer. -/
def ofInt (n : Int) : Double :=
  ofRatio (decide (n < 0)) n.natAbs 1

/-- The number nearest to a natural number. -/
def ofNat (n : Nat) : Double :=
  ofRatio false n 1

/-- Neither infinite nor not-a-number. -/
def isFinite : Double → Bool
  | .finite .. => true
  | _ => false

/-- Whether the number is not-a-number. -/
def isNaN : Double → Bool
  | .nan => true
  | _ => false

/-- Whether the number is one of the two infinities. -/
def isInfinite : Double → Bool
  | .infinity _ => true
  | _ => false

/-- Whether the number is one of the two zeros. -/
def isZero : Double → Bool
  | .finite _ 0 _ _ => true
  | _ => false

/-- The number without its sign. -/
def abs : Double → Double
  | .nan => .nan
  | .infinity _ => .infinity false
  | .finite _ significand exponent canonical => .finite false significand exponent canonical

/-- The number with its sign changed, zeros included. -/
def neg : Double → Double
  | .nan => .nan
  | .infinity negative => .infinity (!negative)
  | .finite negative significand exponent canonical =>
      .finite (!negative) significand exponent canonical

/-- A signed integer as a multiple of a smaller power of two: `±significand * 2 ^ exponent` counted
in units of `2 ^ unit`. -/
def inUnits (negative : Bool) (significand : Nat) (exponent unit : Int) : Int :=
  let magnitude : Int := significand * 2 ^ (exponent - unit).toNat
  if negative then -magnitude else magnitude

/-- The integer part toward zero; infinities and not-a-number have none. -/
def truncate? : Double → Option Int
  | .finite negative significand exponent _ =>
      let magnitude : Int := (significand * 2 ^ exponent.toNat / 2 ^ (-exponent).toNat : Nat)
      some (if negative then -magnitude else magnitude)
  | _ => none

end Double

end TreeQuery
