import TreeQuery.Number.Double

/-!
# Arithmetic of doubles

Sums, products, quotients and remainders are those of the exact values, rounded once to the nearest
double. The comparison orders values, so the zeros are equal and not-a-number compares with nothing.
-/

namespace TreeQuery.Double

attribute [local instance] corePower

/-- The sum, rounded once. An exact cancellation is positive zero. -/
def add : Double → Double → Double
  | .nan, _ => .nan
  | _, .nan => .nan
  | .infinity s, .infinity t => if s = t then .infinity s else .nan
  | .infinity s, .finite .. => .infinity s
  | .finite .., .infinity t => .infinity t
  | .finite s m e _, .finite t n f _ =>
      let unit := min e f
      let sum := inUnits s m e unit + inUnits t n f unit
      if sum = 0 then zero (s && t) else ofScaled (decide (sum < 0)) sum.natAbs unit

/-- The difference, rounded once. -/
def sub (x y : Double) : Double :=
  x.add y.neg

/-- The product, rounded once. -/
def mul : Double → Double → Double
  | .nan, _ => .nan
  | _, .nan => .nan
  | .infinity s, .infinity t => .infinity (s != t)
  | .infinity s, .finite t n _ _ => if n = 0 then .nan else .infinity (s != t)
  | .finite s m _ _, .infinity t => if m = 0 then .nan else .infinity (s != t)
  | .finite s m e _, .finite t n f _ => ofScaled (s != t) (m * n) (e + f)

/-- The quotient, rounded once. -/
def div : Double → Double → Double
  | .nan, _ => .nan
  | _, .nan => .nan
  | .infinity _, .infinity _ => .nan
  | .infinity s, .finite t _ _ _ => .infinity (s != t)
  | .finite s _ _ _, .infinity t => zero (s != t)
  | .finite s m e _, .finite t n f _ =>
      if n = 0 then
        if m = 0 then .nan else .infinity (s != t)
      else
        ofRatio (s != t) (m * 2 ^ (e - f).toNat) (n * 2 ^ (f - e).toNat)

/-- The remainder of a truncating division; it is exact and takes the sign of the dividend. -/
def rem : Double → Double → Double
  | .nan, _ => .nan
  | _, .nan => .nan
  | .infinity _, _ => .nan
  | x, .infinity _ => x
  | .finite s m e _, .finite _ n f _ =>
      if n = 0 then
        .nan
      else
        ofScaled s (m * 2 ^ (e - f).toNat % (n * 2 ^ (f - e).toNat)) (min e f)

/-- The order of two values; nothing compares with not-a-number. -/
def compare? : Double → Double → Option Ordering
  | .nan, _ => none
  | _, .nan => none
  | .infinity s, .infinity t => some (compare t.toNat s.toNat)
  | .infinity s, .finite .. => some (if s then .lt else .gt)
  | .finite .., .infinity t => some (if t then .gt else .lt)
  | .finite s m e _, .finite t n f _ =>
      let unit := min e f
      some (compare (inUnits s m e unit) (inUnits t n f unit))

/-- Equality of values: the zeros are equal, not-a-number differs from itself. -/
def same (x y : Double) : Bool :=
  x.compare? y == some .eq

end TreeQuery.Double
