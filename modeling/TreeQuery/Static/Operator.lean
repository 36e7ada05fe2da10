import TreeQuery.Grammar.Word
import TreeQuery.Number.Power
import TreeQuery.Number.Word
import TreeQuery.Static.Comparison

/-!
# Operators on primitive values

Every operator is total on primitive values except those that ask about objects. Bitwise operators
work on the thirty-two-bit words of the operands' integer parts.
-/

namespace TreeQuery

namespace Primitive

/-- The word of a value's integer part. -/
def word (value : Primitive) : BitVec 32 :=
  value.toNumber.word

/-- A word as a signed number. -/
def ofSigned (word : BitVec 32) : Primitive :=
  .number (.ofInt word.toInt)

/-- A word as an unsigned number. -/
def ofUnsigned (word : BitVec 32) : Primitive :=
  .number (.ofNat word.toNat)

/-- How far a value shifts: its word modulo thirty-two. -/
def shiftCount (value : Primitive) : Nat :=
  value.word.toNat % 32

/-- An operation on the numbers that two values convert to. -/
def numeric (operation : Double → Double → Double) (a b : Primitive) : Primitive :=
  .number (operation a.toNumber b.toNumber)

/-- The sum of two values, or their concatenation when either is a text. -/
def plus (a b : Primitive) : Primitive :=
  if a.isText || b.isText then .text (a.toText ++ b.toText) else numeric Double.add a b

/-- Whether two values have an order and it is one of the given ones. -/
def ordered (orders : List Ordering) (a b : Primitive) : Primitive :=
  .bool ((a.compare? b).any fun order => orders.contains order)

end Primitive

open Primitive

/-- The value of a binary operation; the operators that ask about objects have none. -/
def BinaryOperator.apply? : BinaryOperator → Primitive → Primitive → Option Primitive
  | .add, a, b => some (plus a b)
  | .sub, a, b => some (numeric Double.sub a b)
  | .mul, a, b => some (numeric Double.mul a b)
  | .div, a, b => some (numeric Double.div a b)
  | .rem, a, b => some (numeric Double.rem a b)
  | .exp, a, b => some (numeric Double.pow a b)
  | .bitAnd, a, b => some (ofSigned (a.word &&& b.word))
  | .bitOr, a, b => some (ofSigned (a.word ||| b.word))
  | .bitXor, a, b => some (ofSigned (a.word ^^^ b.word))
  | .shiftLeft, a, b => some (ofSigned (a.word <<< b.shiftCount))
  | .shiftRight, a, b => some (ofSigned (a.word.sshiftRight b.shiftCount))
  | .shiftRightUnsigned, a, b => some (ofUnsigned (a.word >>> b.shiftCount))
  | .strictEq, a, b => some (.bool (a.strictEq b))
  | .notStrictEq, a, b => some (.bool (!a.strictEq b))
  | .looseEq, a, b => some (.bool (a.looseEq b))
  | .notLooseEq, a, b => some (.bool (!a.looseEq b))
  | .less, a, b => some (ordered [.lt] a b)
  | .lessEq, a, b => some (ordered [.lt, .eq] a b)
  | .greater, a, b => some (ordered [.gt] a b)
  | .greaterEq, a, b => some (ordered [.gt, .eq] a b)
  | .memberOf, _, _ | .instanceOf, _, _ => none

/-- The value of a unary operation on a known operand; a deletion has none. -/
def UnaryOperator.apply? : UnaryOperator → Primitive → Option Primitive
  | .negate, a => some (.number a.toNumber.neg)
  | .plus, a => some (.number a.toNumber)
  | .not, a => some (.bool (!a.toBool))
  | .bitNot, a => some (ofSigned (~~~a.word))
  | .typeOf, a => some (.text a.typeName)
  | .void, _ => some .undefined
  | .delete, _ => none

/-- Whether the left operand alone decides. -/
def LogicalOperator.decidedBy : LogicalOperator → Primitive → Bool
  | .and, left => !left.toBool
  | .or, left => left.toBool
  | .coalesce, left => !left.isNullish

end TreeQuery
