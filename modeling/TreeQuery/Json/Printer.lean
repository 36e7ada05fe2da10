import TreeQuery.Json.Basic
import TreeQuery.Number.Layout
import TreeQuery.Text.Quoted

/-!
# Compact JSON text

A value is written without blanks, members in their order. A double always shows a fraction or a
power of ten, so that it differs from a whole number.
-/

namespace TreeQuery.Json

/-- Doubles are written out from `0.00001` up to sixteen digits before the point. -/
def layout : Layout where
  least := -5
  greatest := 16
  wholeFraction := true
  plus := true
  zero negative := if negative then ['-', '0', '.', '0'] else ['0', '.', '0']

/-- The text of a double; JSON has no infinities. -/
def doubleText : Double → List Char
  | .finite negative significand exponent canonical =>
      layout.finite negative significand exponent canonical
  | _ => ['n', 'u', 'l', 'l']

/-- The text of a whole number. -/
def integerText (value : Int) : List Char :=
  (if value < 0 then ['-'] else []) ++ Layout.natural value.natAbs

/-- The text of a number. -/
def Number.text : Number → List Char
  | .integer value => integerText value
  | .double value => doubleText value

/-- A character as it stands in a JSON string. -/
def escape (c : Char) : List Char :=
  if c = '"' then ['\\', '"']
  else if c = '\\' then ['\\', '\\']
  else if c = '\x08' then ['\\', 'b']
  else if c = '\x0c' then ['\\', 'f']
  else if c = '\n' then ['\\', 'n']
  else if c = '\r' then ['\\', 'r']
  else if c = '\t' then ['\\', 't']
  else if c.toNat < 0x10 then '\\' :: 'u' :: '0' :: '0' :: '0' :: Text.hexadecimal c.toNat
  else if c.toNat < 0x20 then '\\' :: 'u' :: '0' :: '0' :: Text.hexadecimal c.toNat
  else [c]

/-- The text of a string. -/
def stringText (value : String) : List Char :=
  '"' :: value.toList.flatMap escape ++ ['"']

mutual

/-- The text of a value. -/
def compact : Json → List Char
  | .null => ['n', 'u', 'l', 'l']
  | .bool true => ['t', 'r', 'u', 'e']
  | .bool false => ['f', 'a', 'l', 's', 'e']
  | .number value => value.text
  | .string value => stringText value
  | .array items => '[' :: compactItems items ++ [']']
  | .object members => '\x7b' :: compactMembers members ++ ['\x7d']

/-- The texts of a list of values, with commas between. -/
def compactItems : List Json → List Char
  | [] => []
  | [item] => compact item
  | item :: items => compact item ++ ',' :: compactItems items

/-- The texts of a list of members, with commas between. -/
def compactMembers : List (String × Json) → List Char
  | [] => []
  | [(key, value)] => stringText key ++ ':' :: compact value
  | (key, value) :: members =>
      stringText key ++ ':' :: compact value ++ ',' :: compactMembers members

end

/-- The text of a value as a string. -/
def render (value : Json) : String :=
  String.ofList (compact value)

end TreeQuery.Json
