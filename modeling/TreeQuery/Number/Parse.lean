import TreeQuery.Number.Decimal

/-!
# Plain numerals

A text that is nothing but a numeral is read as an integer or as a double. An integer is a sign, if
there is one, and digits. A double may have a point and a power of ten, or be named.
-/

namespace TreeQuery.Numeric

/-- A sign, if there is one, and what follows it. -/
def splitSign : List Char → Bool × List Char
  | '-' :: rest => (true, rest)
  | '+' :: rest => (false, rest)
  | rest => (false, rest)

/-- The integer of thirty-two bits that a text writes. -/
def integer? (text : List Char) : Option Int :=
  let (negative, digits) := splitSign text
  if digits ≠ [] ∧ digits.all Char.isDigit then
    let magnitude : Int := Nat.ofDigitChars 10 digits 0
    let value := if negative then -magnitude else magnitude
    if -2147483648 ≤ value ∧ value ≤ 2147483647 then some value else none
  else
    none

/-- The exponent that follows the digits of a decimal, if the text ends behind it. -/
def exponent? : List Char → Option Int
  | [] => some 0
  | mark :: rest =>
      let (negative, digits) := splitSign rest
      if (mark = 'e' ∨ mark = 'E') ∧ digits ≠ [] ∧ digits.all Char.isDigit then
        let magnitude : Int := Nat.ofDigitChars 10 digits 0
        some (if negative then -magnitude else magnitude)
      else
        none

/-- The digits of a decimal as one natural number, with the power of ten to multiply them by. -/
def decimal? (text : List Char) : Option (Nat × Int) :=
  let (whole, rest) := text.span Char.isDigit
  let (fraction, rest) := match rest with
    | '.' :: rest => rest.span Char.isDigit
    | rest => ([], rest)
  if whole.isEmpty ∧ fraction.isEmpty then
    none
  else
    (exponent? rest).map fun exponent =>
      (Nat.ofDigitChars 10 (whole ++ fraction) 0, exponent - fraction.length)

/-- The double that a name stands for, in small letters or capitals. -/
def named? (text : List Char) : Option Double :=
  let name := text.map Char.toLower
  if name = "inf".toList ∨ name = "infinity".toList then some (.infinity false)
  else if name = "nan".toList then some .nan
  else none

/-- The double that a text writes. -/
def double? (text : List Char) : Option Double :=
  let (negative, body) := splitSign text
  match named? body with
  | some value => some (if negative then value.neg else value)
  | none => (decimal? body).map fun (digits, exponent) => .ofDecimal negative digits exponent

end TreeQuery.Numeric
