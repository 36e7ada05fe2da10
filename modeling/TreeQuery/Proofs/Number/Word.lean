import Mathlib.Data.Int.ModEq
import TreeQuery.Number.Word
import TreeQuery.Proofs.Number.Exact

/-!
# Words as residues

The word of a number is the residue of its integer part modulo `2 ^ 32`, read without and with a
sign. On the way there the integer part, the remainder, the sum that makes it positive and the
reading of a word are all exact, however large or small the number is.
-/

namespace TreeQuery.Double

/-- What remains of a value toward zero. -/
def towardZero (q : ℚ) : Int :=
  if q < 0 then ⌈q⌉ else ⌊q⌋

/-- The integer part of a number; zero where there is none. -/
def integerPart (x : Double) : Int :=
  towardZero x.value

theorem towardZero_intCast (n : Int) : towardZero n = n := by
  simp [towardZero]

theorem towardZero_withSign (negative : Bool) {q : ℚ} (nonnegative : 0 ≤ q) :
    towardZero (withSign negative q) = if negative then -⌊q⌋ else ⌊q⌋ := by
  cases negative with
  | false => simp [towardZero, withSign, nonnegative]
  | true =>
      rcases nonnegative.eq_or_lt with rfl | positive
      · simp [towardZero, withSign]
      · simp [towardZero, withSign, positive, Int.ceil_neg]

theorem floor_scaled (significand : Nat) (exponent : Int) :
    ⌊(significand : ℚ) * 2 ^ exponent⌋ =
      (significand * 2 ^ exponent.toNat / 2 ^ (-exponent).toNat : Nat) := by
  have exactly : ((significand * 2 ^ exponent.toNat : Nat) : ℚ) / (2 ^ (-exponent).toNat : Nat) =
      significand * 2 ^ exponent := scaled_div_eq two_pos significand exponent
  rw [← exactly, Rat.floor_natCast_div_natCast, Int.natCast_ediv]

theorem Holds.truncate?_eq {x : Double} {q : ℚ} (holds : x.Holds q) :
    x.truncate? = some (towardZero q) := by
  obtain ⟨negative, significand, exponent, canonical, rfl, rfl⟩ := holds.exists_eq
  rw [towardZero_withSign negative (by positivity), floor_scaled]
  rfl

/-! ## The steps -/

/-- The integer part fits into a significand: where the number has a fraction, it is smaller than
the significand, and elsewhere it is the number itself. -/
theorem Holds.truncate {x : Double} {q : ℚ} (holds : x.Holds q) :
    x.truncate.Holds (towardZero q) := by
  obtain ⟨negative, significand, exponent, canonical, rfl, rfl⟩ := holds.exists_eq
  have part := floor_scaled significand exponent
  have rounding := isRounding_ofRatio negative
    (significand * 2 ^ exponent.toNat / 2 ^ (-exponent).toNat) one_pos
  rw [Nat.cast_one, div_one] at rounding
  have held : (finite negative significand exponent canonical).truncate.Holds
      (withSign negative (significand * 2 ^ exponent.toNat / 2 ^ (-exponent).toNat : Nat)) := by
    rcases le_total 0 exponent with whole | fractional
    · refine rounding.holds _ _ canonical.1 canonical.2.1 canonical.2.2.1 ?_
      have noFraction : (-exponent).toNat = 0 := by omega
      have power : (2 : ℚ) ^ exponent = 2 ^ exponent.toNat := by
        rw [← zpow_natCast, Int.toNat_of_nonneg whole]
      rw [noFraction, pow_zero, Nat.div_one, power]
      push_cast
      rfl
    · refine rounding.holds_nat (lt_of_le_of_lt ?_ canonical.1)
      have noPower : exponent.toNat = 0 := by omega
      rw [noPower, pow_zero, mul_one]
      exact Nat.div_le_self _ _
  have same : ((towardZero (withSign negative (significand * 2 ^ exponent)) : Int) : ℚ) =
      withSign negative (significand * 2 ^ exponent.toNat / 2 ^ (-exponent).toNat : Nat) := by
    rw [towardZero_withSign negative (by positivity), part]
    generalize significand * 2 ^ exponent.toNat / 2 ^ (-exponent).toNat = magnitude
    cases negative <;> simp [withSign]
  rwa [same]

theorem Holds.abs {x : Double} {q : ℚ} (holds : x.Holds q) : x.abs.Holds |q| := by
  obtain ⟨negative, significand, exponent, canonical, rfl, rfl⟩ := holds.exists_eq
  refine ⟨rfl, ?_⟩
  rw [abs_withSign negative (by positivity)]
  rfl

theorem Holds.compare?_zero {x : Double} {q : ℚ} (holds : x.Holds q) :
    x.compare? (zero false) = some .lt ↔ q < 0 := by
  obtain ⟨negative, significand, exponent, canonical, rfl, rfl⟩ := holds.exists_eq
  have counted := inUnits_mul_zpow negative significand (min_le_left exponent (-1074))
  have unit : (0 : ℚ) < 2 ^ min exponent (-1074) := by positivity
  have nothing : inUnits false 0 (-1074) (min exponent (-1074)) = 0 := by simp [inUnits]
  rw [← counted, mul_neg_iff, and_iff_left unit, or_iff_right (by simp [unit.le]), Int.cast_lt_zero]
  simp only [compare?, zero, nothing, Option.some.injEq, compare_lt_iff_lt]

/-- A remainder below zero is raised by the divisor without rounding. -/
theorem Holds.raise {x y : Double} {r b : Int} (remainder : x.Holds r) (divisor : y.Holds b)
    (fits : b < 2 ^ 53) (negative : r < 0) (above : -b < r) :
    (x.add y.abs).Holds (r + b : Int) := by
  have size : ((r + b).natAbs : ℚ) = |(r : ℚ) + b| := by
    rw [Nat.cast_natAbs]
    push_cast
    rfl
  have right : y.abs.Holds b := by
    have absolute := divisor.abs
    rwa [abs_of_pos (by exact_mod_cast (by omega : 0 < b))] at absolute
  have nonzero : (r : ℚ) + b ≠ 0 := by exact_mod_cast (by omega : r + b ≠ 0)
  have sum := holds_add remainder right nonzero (r + b).natAbs 0 (by omega) (by norm_num)
    (by norm_num) (by rw [size, zpow_zero, mul_one])
  rwa [← Int.cast_add] at sum

/-- The remainder of integers, brought between zero and the divisor. -/
theorem Holds.euclideanRem {x y : Double} {a b : Int} (left : x.Holds a) (right : y.Holds b)
    (positive : 0 < b) (fits : b < 2 ^ 53) : (x.euclideanRem y).Holds (a % b : Int) := by
  have remainder := holds_rem left right positive.ne'
  have above : -b < a.tmod b := Int.lt_tmod_of_pos a positive
  have below : a.tmod b < b := Int.tmod_lt_of_pos a positive
  have residue : a % b = a.tmod b % b := by
    conv_lhs => rw [← Int.mul_tdiv_add_tmod a b, Int.mul_add_emod_self_left]
  rw [Double.euclideanRem]
  simp only [remainder.compare?_zero, Int.cast_lt_zero]
  split
  · rename_i negative
    have raised : a % b = a.tmod b + b := by
      rw [residue, ← Int.add_emod_right, Int.emod_eq_of_lt (by omega) (by omega)]
    rw [raised]
    exact remainder.raise right fits negative above
  · rename_i nonnegative
    rw [residue, Int.emod_eq_of_lt (by omega) below]
    exact remainder

theorem Holds.saturate {x : Double} {n : Int} (holds : x.Holds n) (nonnegative : 0 ≤ n)
    (fits : n < 2 ^ 32) : (x.saturate.toNat : Int) = n := by
  have part := holds.truncate?_eq
  rw [towardZero_intCast] at part
  have kept : min n.toNat (2 ^ 32 - 1) = n.toNat := by omega
  have read : x.saturate = BitVec.ofNat 32 n.toNat := by
    obtain ⟨negative, significand, exponent, canonical, rfl, -⟩ := holds.exists_eq
    rw [← kept, Double.saturate, part, Option.getD_some]
    nofun
  rw [read, BitVec.toNat_ofNat, Nat.mod_eq_of_lt (by omega), Int.toNat_of_nonneg nonnegative]

theorem holds_wordCount : wordCount.Holds (2 ^ 32 : Int) := by
  have holds := holds_ofNat (n := 2 ^ 32) (by norm_num)
  exact_mod_cast holds

/-! ## The word -/

/-- Every step from a number with the integer part `n` to its word gives its exact result. -/
structure ReducesExactly (x : Double) (n : Int) : Prop where
  truncated : x.truncate.Holds n
  remainder : (x.truncate.rem wordCount).Holds (n.tmod (2 ^ 32) : Int)
  raised : n.tmod (2 ^ 32) < 0 →
    ((x.truncate.rem wordCount).add wordCount.abs).Holds (n.tmod (2 ^ 32) + 2 ^ 32 : Int)
  reduced : (x.truncate.euclideanRem wordCount).Holds (n % 2 ^ 32 : Int)
  read : ((x.truncate.euclideanRem wordCount).saturate.toNat : Int) = n % 2 ^ 32

theorem reducesExactly {x : Double} (isFinite : x.isFinite = true) :
    x.ReducesExactly x.integerPart := by
  have truncated : x.truncate.Holds x.integerPart := Holds.truncate ⟨isFinite, rfl⟩
  have remainder := holds_rem truncated holds_wordCount (by norm_num)
  have reduced := truncated.euclideanRem holds_wordCount (by norm_num) (by norm_num)
  refine ⟨truncated, remainder, fun negative => ?_, reduced, ?_⟩
  · have above := Int.lt_tmod_of_pos x.integerPart (by norm_num : (0 : Int) < 2 ^ 32)
    exact remainder.raise holds_wordCount (by norm_num) negative above
  · exact reduced.saturate (Int.emod_nonneg _ (by norm_num)) (Int.emod_lt_of_pos _ (by norm_num))

theorem integerPart_of_isZero {x : Double} (isZero : x.isZero = true) : x.integerPart = 0 := by
  cases x with
  | nan => cases isZero
  | infinity _ => cases isZero
  | finite negative significand exponent canonical =>
      cases significand with
      | zero => cases negative <;> simp [integerPart, towardZero, value, withSign]
      | succ _ => cases isZero

theorem integerPart_of_not_isFinite {x : Double} (notFinite : x.isFinite = false) :
    x.integerPart = 0 := by
  cases x with
  | nan => simp [integerPart, towardZero, value]
  | infinity _ => simp [integerPart, towardZero, value]
  | finite _ _ _ _ => cases notFinite

/-- The word of a number is the residue of its integer part. -/
theorem toNat_word (x : Double) : (x.word.toNat : Int) = x.integerPart % 2 ^ 32 := by
  rw [word]
  split
  · rename_i reduced
    rw [Bool.and_eq_true] at reduced
    exact (reducesExactly reduced.1).read
  · rename_i trivially
    have nothing : x.integerPart = 0 := by
      cases isFinite : x.isFinite with
      | false => exact integerPart_of_not_isFinite isFinite
      | true =>
          apply integerPart_of_isZero
          simpa [isFinite] using trivially
    rw [nothing]
    rfl

theorem word_eq_ofInt (x : Double) : x.word = BitVec.ofInt 32 x.integerPart := by
  apply BitVec.eq_of_toNat_eq
  rw [BitVec.toNat_ofInt, ← Int.toNat_natCast x.word.toNat, toNat_word]
  rfl

theorem toInt_word (x : Double) : x.word.toInt = x.integerPart.bmod (2 ^ 32) := by
  rw [word_eq_ofInt, BitVec.toInt_ofInt]

/-- The word of a finite number, read without and with a sign, is the one integer in the range of
such words that is congruent to the integer part, and no step on the way rounds or saturates. Other
numbers have the word zero. -/
theorem word_residue (x : Double) :
    (x.isFinite = true →
      (∀ n : Int, (0 ≤ n ∧ n < 2 ^ 32 ∧ n ≡ towardZero x.value [ZMOD 2 ^ 32]) ↔
        n = x.word.toNat) ∧
      (∀ n : Int, (-2 ^ 31 ≤ n ∧ n < 2 ^ 31 ∧ n ≡ towardZero x.value [ZMOD 2 ^ 32]) ↔
        n = x.word.toInt) ∧
      x.ReducesExactly (towardZero x.value)) ∧
    (x.isFinite = false → x.word.toNat = 0 ∧ x.word.toInt = 0) := by
  have unsigned := toNat_word x
  have signed := toInt_word x
  rw [Int.bmod_def] at signed
  refine ⟨fun isFinite => ⟨fun n => ?_, fun n => ?_, reducesExactly isFinite⟩, fun notFinite => ?_⟩
  · rw [unsigned, Int.ModEq, integerPart]
    omega
  · rw [signed, Int.ModEq, integerPart]
    omega
  · rw [integerPart_of_not_isFinite notFinite] at unsigned signed
    exact ⟨by exact_mod_cast unsigned, signed⟩

/-- The number `-4294967297.5` loses a fraction, leaves a remainder below zero and is raised. -/
theorem word_residue_raised :
    let x := finite true 4503599628943360 (-20) (by decide)
    x.isFinite = true ∧ x.word.toNat = 4294967295 ∧ x.word.toInt = -1 ∧
      x.ReducesExactly (-4294967297) := by
  intro x
  obtain ⟨unsigned, signed, exactly⟩ := (word_residue x).1 rfl
  have part : towardZero x.value = -4294967297 := by
    norm_num [x, towardZero, value, withSign, Int.ceil_eq_iff]
  rw [part] at unsigned signed exactly
  have congruent (n : Int) (same : n % 2 ^ 32 = 4294967295) : n ≡ -4294967297 [ZMOD 2 ^ 32] := same
  have whole := (unsigned 4294967295).mp ⟨by norm_num, by norm_num, congruent _ (by norm_num)⟩
  have balanced := (signed (-1)).mp ⟨by norm_num, by norm_num, congruent _ (by norm_num)⟩
  exact ⟨rfl, by exact_mod_cast whole.symm, balanced.symm, exactly⟩

end TreeQuery.Double
