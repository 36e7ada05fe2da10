import TreeQuery.Number.Arithmetic
import TreeQuery.Number.Parse
import TreeQuery.Static.Primitive
import TreeQuery.Text.Blank

/-!
# Numbers from texts

A text between blanks is a number when it is empty, an integer in base two, eight or sixteen behind
its mark, or a signed decimal or infinity. Everything else is not-a-number.
-/

namespace TreeQuery

namespace Numeric

/-- The value of a digit in the given base. -/
def digit? (base : Nat) (c : Char) : Option Nat :=
  let value : Option Nat :=
    if '0' ≤ c ∧ c ≤ '9' then some (c.toNat - '0'.toNat)
    else if 'a' ≤ c ∧ c ≤ 'z' then some (c.toNat - 'a'.toNat + 10)
    else if 'A' ≤ c ∧ c ≤ 'Z' then some (c.toNat - 'A'.toNat + 10)
    else none
  value.bind fun value => if value < base then some value else none

/-- Adds digits to a number one at a time, each step rounded. -/
def accumulate (base : Nat) (sum : Double) : List Char → Double
  | [] => sum
  | c :: rest =>
      match digit? base c with
      | some digit => accumulate base ((sum.mul (.ofNat base)).add (.ofNat digit)) rest
      | none => .nan

/-- The number that digits behind a base mark write; there is at least one. -/
def inBase (base : Nat) (digits : List Char) : Double :=
  if digits.isEmpty then .nan else accumulate base (.zero false) digits

/-- The digits behind a base mark, with the base. -/
def baseMark? : List Char → Option (Nat × List Char)
  | '0' :: 'x' :: digits | '0' :: 'X' :: digits => some (16, digits)
  | '0' :: 'o' :: digits | '0' :: 'O' :: digits => some (8, digits)
  | '0' :: 'b' :: digits | '0' :: 'B' :: digits => some (2, digits)
  | _ => none

/-- What has been seen of a decimal. -/
structure Seen where
  /-- A digit before the power of ten. -/
  digit : Bool
  /-- A point. -/
  point : Bool
  /-- A power of ten. -/
  power : Bool

/-- How many characters write the power behind its mark: a sign, if there is one, and digits. There
are none where no digit follows. -/
def powerLength (text : List Char) : Nat :=
  let signs := if text.head? = some '+' ∨ text.head? = some '-' then 1 else 0
  let digits := ((text.drop signs).takeWhile Char.isDigit).length
  if digits = 0 then 0 else signs + digits

/-- Whether a text goes on as a decimal, one character at a time. The mark of a power looks ahead:
`taken` is the number of characters that it has looked at already. -/
def goesOn (seen : Seen) : Nat → List Char → Bool
  | _, [] => seen.digit
  | taken + 1, _ :: rest => goesOn seen taken rest
  | 0, c :: rest =>
      if c.isDigit then
        goesOn { seen with digit := seen.digit || !seen.power } 0 rest
      else if c = '.' then
        if seen.point || seen.power then false else goesOn { seen with point := true } 0 rest
      else if c = 'e' ∨ c = 'E' then
        if seen.power || !seen.digit || powerLength rest = 0 then false
        else goesOn { seen with power := true } (powerLength rest) rest
      else
        false

/-- Whether a text is a decimal without a sign. -/
def isDecimal (text : List Char) : Bool :=
  goesOn ⟨false, false, false⟩ 0 text

/-- The number that a text without surrounding blanks writes. -/
def ofTrimmed (text : List Char) : Double :=
  if text.isEmpty then
    .zero false
  else
    match baseMark? text with
    | some (base, digits) => inBase base digits
    | none =>
        let (negative, body) := splitSign text
        if body = "Infinity".toList then
          .infinity negative
        else if isDecimal body then
          match double? body with
          | some value => if negative then value.neg else value
          | none => .nan
        else
          .nan

/-- The number that a text writes. -/
def ofText (text : String) : Double :=
  ofTrimmed (Text.trim text.toList)

end Numeric

/-- The number that a value converts to. -/
def Primitive.toNumber : Primitive → Double
  | .undefined => .nan
  | .null => .zero false
  | .bool value => .ofNat value.toNat
  | .number value => value
  | .text value => Numeric.ofText value

end TreeQuery
