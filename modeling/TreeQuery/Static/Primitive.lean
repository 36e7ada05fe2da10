import TreeQuery.Number.Printed

/-!
# Primitive values

The values that a static expression can have, and their conversions to truth values and texts.
-/

namespace TreeQuery

/-- A primitive value of the language. -/
inductive Primitive where
  /-- The value `undefined`. -/
  | undefined
  /-- The value `null`. -/
  | null
  /-- A truth value. -/
  | bool (value : Bool)
  /-- A number. -/
  | number (value : Double)
  /-- A text. -/
  | text (value : String)
deriving DecidableEq

/-- Numbers are written out from `0.000001` up to twenty-one digits before the point, and a zero
does not show its sign. -/
def numberLayout : Layout where
  least := -6
  greatest := 21
  wholeFraction := false
  plus := true
  zero _ := ['0']

/-- The text of a number, as the language converts it: the digits of the printed number, in the
layout of the language. -/
def numberText : Double → List Char
  | .nan => ['N', 'a', 'N']
  | .infinity negative => (if negative then ['-'] else []) ++ "Infinity".toList
  | .finite negative significand exponent canonical =>
      if significand = 0 then
        numberLayout.zero negative
      else
        (if negative then ['-'] else []) ++
          numberLayout.magnitude (.recover (printed significand exponent canonical))

namespace Primitive

/-- The truth value that a value converts to. -/
def toBool : Primitive → Bool
  | .undefined | .null => false
  | .bool value => value
  | .number value => !value.isNaN && !value.isZero
  | .text value => !value.isEmpty

/-- The text that a value converts to. -/
def toText : Primitive → String
  | .undefined => "undefined"
  | .null => "null"
  | .bool true => "true"
  | .bool false => "false"
  | .number value => String.ofList (numberText value)
  | .text value => value

/-- Whether a value stands for the absence of one. -/
def isNullish : Primitive → Bool
  | .undefined | .null => true
  | _ => false

/-- The name of a value's type, as the language gives it. -/
def typeName : Primitive → String
  | .undefined => "undefined"
  | .null => "object"
  | .bool _ => "boolean"
  | .number _ => "number"
  | .text _ => "string"

/-- Whether a value is a text. -/
def isText : Primitive → Bool
  | .text _ => true
  | _ => false

end Primitive

end TreeQuery
