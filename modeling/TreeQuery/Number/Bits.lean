import TreeQuery.Number.Double

/-!
# The binary64 interchange format

Sixty-four bits: a sign, eleven bits of biased exponent, fifty-two bits of fraction.
-/

namespace TreeQuery.Double

attribute [local instance] corePower

/-- The bits of a number, as an integer below `2 ^ 64`; not-a-number is the quiet one. -/
def toBits : Double → Nat
  | .nan => 0x7ff8000000000000
  | .infinity negative => (if negative then 2 ^ (63 : Nat) else 0) + 0x7ff0000000000000
  | .finite negative significand exponent _ =>
      (if negative then 2 ^ (63 : Nat) else 0) +
        if significand < 2 ^ (52 : Nat) then
          significand
        else
          (exponent + 1075).toNat * 2 ^ (52 : Nat) + (significand - 2 ^ (52 : Nat))

/-- The number that the low 64 bits of an integer stand for. -/
def ofBits (bits : Nat) : Double :=
  let negative : Bool := bits / 2 ^ (63 : Nat) % 2 = 1
  let biased : Nat := bits / 2 ^ (52 : Nat) % 2 ^ (11 : Nat)
  let fraction : Nat := bits % 2 ^ (52 : Nat)
  if biased = 2047 then
    if fraction = 0 then .infinity negative else .nan
  else if biased = 0 then
    pack negative fraction (-1074)
  else
    pack negative (2 ^ (52 : Nat) + fraction) (biased - 1075)

end TreeQuery.Double
