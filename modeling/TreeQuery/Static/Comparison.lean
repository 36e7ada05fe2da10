import TreeQuery.Static.Numeric
import TreeQuery.Text.Units

/-!
# Comparing primitive values

Two texts compare by their sixteen-bit units and all other values as numbers. Strict equality tells
types apart. Loose equality converts first, but `null` and `undefined` equal only each other.
-/

namespace TreeQuery.Primitive

/-- The order of two values; with not-a-number on either side there is none. -/
def compare? : Primitive → Primitive → Option Ordering
  | .text a, .text b => some (Text.compareUnits a b)
  | a, b => a.toNumber.compare? b.toNumber

/-- Equality without conversion. -/
def strictEq : Primitive → Primitive → Bool
  | .undefined, .undefined => true
  | .null, .null => true
  | .bool a, .bool b => a == b
  | .number a, .number b => a.same b
  | .text a, .text b => a == b
  | _, _ => false

/-- A truth value as a number; other values stay as they are. -/
def boolAsNumber : Primitive → Primitive
  | .bool value => .number (.ofNat value.toNat)
  | value => value

/-- Equality with conversion. A truth value counts as a number, and a text beside a number is
converted to one. -/
def looseEq (a b : Primitive) : Bool :=
  if a.isNullish || b.isNullish then
    a.isNullish && b.isNullish
  else
    match a.boolAsNumber, b.boolAsNumber with
    | .number a, .text b => a.same (Numeric.ofText b)
    | .text a, .number b => (Numeric.ofText a).same b
    | a, b => a.strictEq b

end TreeQuery.Primitive
