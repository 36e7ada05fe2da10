import TreeQuery.Number.Layout
import TreeQuery.Number.Parse

/-!
# Printed numbers

A number is first printed with its shortest digits, positionally with a fraction or as one leading
digit with a power of ten. To lay them out anew, the digits and their point are recovered from the
printed text.
-/

namespace TreeQuery

/-- How numbers are printed: from `0.00001` up to sixteen digits before the point they are written
out, always with a fraction. -/
def printer : Layout where
  least := -5
  greatest := 16
  wholeFraction := true
  plus := false
  zero negative := if negative then ['-', '0', '.', '0'] else ['0', '.', '0']

/-- The magnitude of a finite number as it is printed. -/
def printed (significand : Nat) (exponent : Int)
    (canonical : Double.Canonical significand exponent) : List Char :=
  printer.finite false significand exponent canonical

/-- What is before the first mark in a text and what is behind it. -/
def splitOnce (mark : Char) : List Char → Option (List Char × List Char)
  | [] => none
  | c :: rest =>
      if c = mark then some ([], rest)
      else (splitOnce mark rest).map fun (before, behind) => (c :: before, behind)

namespace Decimal

/-- The same decimal without zeros at either end. Each zero that is dropped in front moves the
point. -/
def stripped (decimal : Decimal) : Decimal :=
  let leading := decimal.digits.length - (decimal.digits.dropWhile (· == '0')).length
  { digits := ((decimal.digits.drop leading).reverse.dropWhile (· == '0')).reverse
    point := decimal.point - leading }

/-- The decimal that a printed text shows: the digits on both sides of its point, without zeros at
either end, and the point where it stands, moved by the power of ten. -/
def recover (text : List Char) : Decimal :=
  let (mantissa, power) := match splitOnce 'e' text with
    | some (mantissa, power) => (mantissa, (Numeric.integer? power).getD 0)
    | none => (text, 0)
  let (whole, fraction) := (splitOnce '.' mantissa).getD (mantissa, [])
  stripped { digits := whole ++ fraction, point := whole.length + power }

end Decimal

end TreeQuery
