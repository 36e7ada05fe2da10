/-!
# The order of texts by sixteen-bit units

A character beyond the basic plane counts as two units, and both of them sort below the units of the
last characters of the basic plane. So this order is not the order by character.
-/

namespace TreeQuery.Text

/-- The sixteen-bit units of a character: one, or a surrogate pair. -/
def units (c : Char) : List Nat :=
  if c.toNat < 0x10000 then
    [c.toNat]
  else
    [0xd800 + (c.toNat - 0x10000) / 0x400, 0xdc00 + (c.toNat - 0x10000) % 0x400]

/-- The sixteen-bit units of a text. -/
def unitsOf (text : String) : List Nat :=
  text.toList.flatMap units

/-- The order of two texts by their units. -/
def compareUnits (left right : String) : Ordering :=
  List.compareLex compare (unitsOf left) (unitsOf right)

end TreeQuery.Text
