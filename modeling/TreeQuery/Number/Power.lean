import TreeQuery.Number.Bits

/-!
# Exponentiation

The machine's power function, except that an exponent of not-a-number, and an infinite exponent
over a base of magnitude one, give not-a-number.
-/

namespace TreeQuery.Double

/-- The machine number with the same bits. -/
def toFloat (x : Double) : Float :=
  Float.ofBits (UInt64.ofNat x.toBits)

/-- The number with the same bits as a machine number. -/
def ofFloat (x : Float) : Double :=
  ofBits x.toBits.toNat

/-- The number one. -/
def one : Double :=
  ofNat 1

/-- `base` to the power of `exponent`. -/
def pow (base exponent : Double) : Double :=
  if exponent.isNaN ∨ (base.abs = one ∧ exponent.isInfinite) then
    .nan
  else
    ofFloat (base.toFloat.pow exponent.toFloat)

end TreeQuery.Double
