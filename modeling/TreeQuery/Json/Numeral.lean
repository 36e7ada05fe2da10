import TreeQuery.Json.Basic
import TreeQuery.Json.Cursor

/-!
# Numbers in JSON text

A numeral is split into its parts and then given a value. A whole number of machine size keeps its
value. Any other number is built from at most nineteen or twenty leading digits, which fill a
sixty-four-bit significand, and one multiplication or division by a power of ten.
-/

namespace TreeQuery.Json

attribute [local instance] corePower

/-- The parts of a numeral. -/
structure Numeral where
  /-- Whether it starts with a minus sign. -/
  negative : Bool
  /-- The digits before the point. -/
  whole : List Char
  /-- The digits behind the point, if there is a point. -/
  fraction : Option (List Char)
  /-- The sign and the digits of the exponent, if there is one. -/
  exponent : Option (Bool × List Char)
  /-- The byte index of the exponent's first digit. -/
  exponentStart : Nat
deriving DecidableEq, Repr

namespace Numeral

/-- Takes the digits at the cursor. -/
def digits (cursor : Cursor) : List Char × Cursor :=
  let (taken, rest) := cursor.rest.span Char.isDigit
  (taken, ⟨rest, cursor.offset + taken.length⟩)

/-- Reads the digits before the point; a zero stands alone. -/
def readWhole (cursor : Cursor) : Except Fault (List Char × Cursor) :=
  match cursor.rest with
  | [] => .error (cursor.fault .endInValue)
  | '0' :: c :: _ =>
      if c.isDigit then .error (cursor.next.faultAhead .badNumber) else .ok (['0'], cursor.next)
  | c :: _ =>
      if c.isDigit then .ok (digits cursor) else .error (cursor.faultAhead .badNumber)

/-- Reads the digits behind a point or an exponent mark; there is at least one. -/
def readDigits (cursor : Cursor) : Except Fault (List Char × Cursor) :=
  match cursor.rest with
  | [] => .error (cursor.fault .endInValue)
  | c :: _ => if c.isDigit then .ok (digits cursor) else .error (cursor.faultAhead .badNumber)

/-- Reads the point and what is behind it, if there is a point. -/
def readFraction (cursor : Cursor) : Except Fault (Option (List Char) × Cursor) :=
  match cursor.rest with
  | '.' :: _ => do
      let (fraction, cursor) ← readDigits cursor.next
      return (some fraction, cursor)
  | _ => return (none, cursor)

/-- Reads the sign of an exponent; no sign is a plus. The answer is whether it is a minus. -/
def readSign (cursor : Cursor) : Bool × Cursor :=
  match cursor.rest with
  | '-' :: _ => (true, cursor.next)
  | '+' :: _ => (false, cursor.next)
  | _ => (false, cursor)

/-- Reads a numeral. -/
def read (cursor : Cursor) : Except Fault (Numeral × Cursor) := do
  let (negative, cursor) := match cursor.rest with
    | '-' :: _ => (true, cursor.next)
    | _ => (false, cursor)
  let (whole, cursor) ← readWhole cursor
  let (fraction, cursor) ← readFraction cursor
  match cursor.rest with
  | c :: _ =>
      if c = 'e' ∨ c = 'E' then
        let (minus, cursor) := readSign cursor.next
        let (exponent, behind) ← readDigits cursor
        return (⟨negative, whole, fraction, some (minus, exponent), cursor.offset⟩, behind)
      else
        return (⟨negative, whole, fraction, none, cursor.offset⟩, cursor)
  | [] => return (⟨negative, whole, fraction, none, cursor.offset⟩, cursor)

/-- A significand below `2 ^ 64` with a power of ten. -/
structure Scaled where
  /-- The digits taken so far. -/
  significand : Nat
  /-- The power of ten. -/
  exponent : Int
  /-- Whether a digit did not fit, so that no further one is taken. -/
  full : Bool
deriving DecidableEq, Repr

/-- The value of a digit. -/
def digitValue (c : Char) : Nat :=
  c.toNat - '0'.toNat

/-- Whether one more digit fits. -/
def Scaled.admits (scaled : Scaled) (c : Char) : Bool :=
  !scaled.full && scaled.significand * 10 + digitValue c < 2 ^ (64 : Nat)

/-- Takes a digit before the point; one that does not fit counts as a zero. -/
def Scaled.addWhole (scaled : Scaled) (c : Char) : Scaled :=
  if scaled.admits c then
    { scaled with significand := scaled.significand * 10 + digitValue c }
  else
    { scaled with exponent := scaled.exponent + 1, full := true }

/-- Takes a digit behind the point; one that does not fit is dropped. -/
def Scaled.addFraction (scaled : Scaled) (c : Char) : Scaled :=
  if scaled.admits c then
    { scaled with
      significand := scaled.significand * 10 + digitValue c
      exponent := scaled.exponent - 1 }
  else
    { scaled with full := true }

/-- The significand and the power of ten that the digits around the point give. -/
def scaled (numeral : Numeral) : Scaled :=
  let whole := numeral.whole.foldl Scaled.addWhole ⟨0, 0, false⟩
  (numeral.fraction.getD []).foldl Scaled.addFraction { whole with full := false }

/-- The value of an exponent's digits, or the number of digits up to the one that leaves the
thirty-two-bit range. -/
def exponentValue : List Char → Nat → Nat → Except Nat Nat
  | [], value, _ => .ok value
  | c :: rest, value, count =>
      if 2 ^ (31 : Nat) ≤ value * 10 + digitValue c then
        .error (count + 1)
      else
        exponentValue rest (value * 10 + digitValue c) (count + 1)

/-- The nearest double to a power of ten. -/
def powerOfTen (n : Nat) : Double :=
  .ofNat (10 ^ n)

/-- A magnitude multiplied by a power of ten; `none` beyond the doubles. -/
def scaleUp (magnitude : Double) (power : Nat) : Option Double :=
  if 308 < power then
    if magnitude.isZero then some magnitude else none
  else
    let product := magnitude.mul (powerOfTen power)
    if product.isInfinite then none else some product

/-- A magnitude divided by a power of ten. A divisor beyond the doubles is divided out in steps of
`10 ^ 308`; three of them leave nothing of any significand. -/
def scaleDown (magnitude : Double) (power : Nat) : Double :=
  let steps := (power - 1) / 308
  let reduced := Nat.repeat (fun x : Double => x.div (powerOfTen 308)) (min steps 3) magnitude
  reduced.div (powerOfTen (power - 308 * steps))

/-- The magnitude of a numeral that is not a whole number of machine size, or the byte index at
which it was found to be beyond the doubles. -/
def magnitude (numeral : Numeral) (stop : Nat) : Except Fault Double :=
  let scaled := numeral.scaled
  let (minus, digits) := numeral.exponent.getD (false, [])
  match exponentValue digits 0 0 with
  | .error count =>
      if minus ∨ scaled.significand = 0 then
        .ok (.zero false)
      else
        .error ⟨.outOfRange, numeral.exponentStart + count⟩
  | .ok value =>
      let exponent := if minus then scaled.exponent - value else scaled.exponent + value
      let digits := Double.ofNat scaled.significand
      if exponent < 0 then
        .ok (scaleDown digits exponent.natAbs)
      else
        match scaleUp digits exponent.natAbs with
        | some product => .ok product
        | none => .error ⟨.outOfRange, stop⟩

/-- The numeral as a whole number of machine size: below `2 ^ 64`, or negative and down to
`-2 ^ 63`. Negative zero is not whole. -/
def whole? (numeral : Numeral) : Option Int :=
  let value := Nat.ofDigitChars 10 numeral.whole 0
  if numeral.fraction.isSome ∨ numeral.exponent.isSome then none
  else if numeral.negative then
    if 0 < value ∧ value ≤ 2 ^ (63 : Nat) then some (-(value : Int)) else none
  else
    if value < 2 ^ (64 : Nat) then some value else none

/-- The value of a numeral that ends at the byte index `stop`. -/
def value (numeral : Numeral) (stop : Nat) : Except Fault Number :=
  match numeral.whole? with
  | some value => .ok (.integer value)
  | none => do
      let magnitude ← numeral.magnitude stop
      return .double (if numeral.negative then magnitude.neg else magnitude)

end Numeral

end TreeQuery.Json
