import Mathlib.Algebra.Order.Field.Power
import Mathlib.Data.Int.Log
import Mathlib.Data.Rat.Floor
import Mathlib.Tactic.FieldSimp
import Mathlib.Tactic.GCongr
import Mathlib.Tactic.Linarith
import Mathlib.Tactic.NormNum
import Mathlib.Tactic.Positivity
import Mathlib.Tactic.Push
import Mathlib.Tactic.Ring
import TreeQuery.Number.Decimal
import TreeQuery.Proofs.Number.Digits

/-!
# Rounding to binary64

The rounding of a quotient depends on its value alone. It keeps what binary64 holds, and outside the
decades of binary64 it gives an infinity or a zero. Reading a decimal therefore rounds its exact
value, with no regard to how many of its digits are zeros.
-/

namespace TreeQuery.Double

/-- A power with an integer exponent, split over the two sides of a fraction. -/
theorem zpow_mul_pow_toNat_neg {base : ℚ} (nonzero : base ≠ 0) (k : Int) :
    base ^ k * base ^ (-k).toNat = base ^ k.toNat := by
  rcases Int.le_total 0 k with nonnegative | nonpositive
  · obtain ⟨m, rfl⟩ := Int.eq_ofNat_of_zero_le nonnegative
    simp
  · obtain ⟨m, same⟩ := Int.eq_ofNat_of_zero_le (Int.neg_nonneg_of_nonpos nonpositive)
    obtain rfl : k = -(m : Int) := by omega
    simp [nonzero]

/-- The fraction that a scaled number is rounded as. -/
theorem scaled_div_eq {base : Nat} (positive : 0 < base) (digits : Nat) (k : Int) :
    ((digits * base ^ k.toNat : Nat) : ℚ) / (base ^ (-k).toNat : Nat) =
      digits * (base : ℚ) ^ k := by
  have nonzero : (base : ℚ) ≠ 0 := by exact_mod_cast positive.ne'
  rw [div_eq_iff (by positivity)]
  push_cast
  rw [mul_assoc, zpow_mul_pow_toNat_neg nonzero]

/-! ## The binary order -/

theorem zpow_le_div_iff {base : Nat} (nonzero : 0 < base) {n d : Nat} (positive : 0 < d) (k : Int) :
    (base : ℚ) ^ k ≤ n / d ↔ d * base ^ k.toNat ≤ n * base ^ (-k).toNat := by
  have basePositive : (0 : ℚ) < base := by exact_mod_cast nonzero
  have denominator : (0 : ℚ) < d := by exact_mod_cast positive
  have power : (0 : ℚ) < base ^ (-k).toNat := by positivity
  have split := zpow_mul_pow_toNat_neg basePositive.ne' k
  rw [le_div_iff₀ denominator, ← mul_le_mul_iff_left₀ power, mul_right_comm, split]
  norm_cast
  rw [mul_comm]

theorem log_eq_of_bounds {q : ℚ} {k : Int} (lower : (2 : ℚ) ^ k ≤ q) (upper : q < 2 ^ (k + 1)) :
    Int.log 2 q = k := by
  have positive : 0 < q := lt_of_lt_of_le (by positivity) lower
  have atLeast : k ≤ Int.log 2 q :=
    (Int.zpow_le_iff_le_log (by norm_num) positive).mp (by exact_mod_cast lower)
  have below : Int.log 2 q < k + 1 :=
    (Int.lt_zpow_iff_log_lt (by norm_num) positive).mp (by exact_mod_cast upper)
  omega

theorem binaryOrder_eq_log {n d : Nat} (numerator : 0 < n) (denominator : 0 < d) :
    binaryOrder n d = Int.log 2 (n / d : ℚ) := by
  have dPositive : (0 : ℚ) < d := by exact_mod_cast denominator
  have nLower : (2 : ℚ) ^ (n.log2 : Int) ≤ n := by
    exact_mod_cast Nat.log2_self_le numerator.ne'
  have nUpper : (n : ℚ) < 2 ^ ((n.log2 : Int) + 1) := by
    exact_mod_cast Nat.lt_log2_self
  have dLower : (2 : ℚ) ^ (d.log2 : Int) ≤ d := by
    exact_mod_cast Nat.log2_self_le denominator.ne'
  have dUpper : (d : ℚ) < 2 ^ ((d.log2 : Int) + 1) := by
    exact_mod_cast Nat.lt_log2_self
  symm
  have compared := fun k => (zpow_le_div_iff two_pos (n := n) denominator k).symm
  simp only [binaryOrder, compared, Nat.cast_ofNat]
  split
  · rename_i lower
    apply log_eq_of_bounds lower
    rw [div_lt_iff₀ dPositive]
    calc (n : ℚ) < 2 ^ ((n.log2 : Int) + 1) := nUpper
      _ = 2 ^ ((n.log2 : Int) - d.log2 + 1) * 2 ^ (d.log2 : Int) := by
          rw [← zpow_add₀ two_ne_zero]
          congr 1
          omega
      _ ≤ 2 ^ ((n.log2 : Int) - d.log2 + 1) * d := by gcongr
  · rename_i upper
    apply log_eq_of_bounds
    · rw [le_div_iff₀ dPositive]
      calc 2 ^ ((n.log2 : Int) - d.log2 - 1) * (d : ℚ)
          ≤ 2 ^ ((n.log2 : Int) - d.log2 - 1) * 2 ^ ((d.log2 : Int) + 1) := by gcongr
        _ = 2 ^ (n.log2 : Int) := by
          rw [← zpow_add₀ two_ne_zero]
          congr 1
          omega
        _ ≤ n := nLower
    · rw [sub_add_cancel]
      exact not_le.mp upper

/-! ## The value alone matters -/

theorem nearest_mul_left {k : Nat} (positive : 0 < k) (n d : Nat) :
    nearest (k * n) (k * d) = nearest n d := by
  have double : 2 * (k * n % (k * d)) = k * (2 * (n % d)) := by
    rw [Nat.mul_mod_mul_left]
    ring
  simp only [nearest, double, Nat.mul_div_mul_left _ _ positive, Nat.mul_lt_mul_left positive,
    Nat.mul_right_inj positive.ne']

theorem ofRatio_mul_left (negative : Bool) {k d : Nat} (positive : 0 < k) (denominator : 0 < d)
    (n : Nat) : ofRatio negative (k * n) (k * d) = ofRatio negative n d := by
  by_cases zero : n = 0
  · simp [ofRatio, zero]
  · have numerator : 0 < n := Nat.pos_of_ne_zero zero
    have place : lastPlace (k * n) (k * d) = lastPlace n d := by
      rw [lastPlace, lastPlace, binaryOrder_eq_log (by positivity) (by positivity),
        binaryOrder_eq_log numerator denominator]
      push_cast
      rw [mul_div_mul_left]
      exact_mod_cast positive.ne'
    have significand : ∀ a b, nearest (k * n * a) (k * d * b) = nearest (n * a) (d * b) := by
      intro a b
      rw [mul_assoc, mul_assoc, nearest_mul_left positive]
    have notZero : k * n ≠ 0 := by positivity
    simp only [ofRatio, if_neg zero, if_neg notZero, place, significand]

/-- Equal quotients are rounded alike. -/
theorem ofRatio_congr (negative : Bool) {n d n' d' : Nat} (denominator : 0 < d)
    (denominator' : 0 < d') (same : n * d' = n' * d) :
    ofRatio negative n d = ofRatio negative n' d' := by
  calc ofRatio negative n d = ofRatio negative (d' * n) (d' * d) :=
        (ofRatio_mul_left negative denominator' denominator n).symm
    _ = ofRatio negative (d * n') (d * d') := by
        rw [mul_comm d' n, same, mul_comm n' d, mul_comm d' d]
    _ = ofRatio negative n' d' := ofRatio_mul_left negative denominator denominator' n'

/-! ## What binary64 holds -/

theorem nearest_mul_right {d : Nat} (positive : 0 < d) (n : Nat) : nearest (n * d) d = n := by
  simp [nearest, positive]

/-- The last place of a number that binary64 holds is its exponent. -/
theorem lastPlace_of_canonical {significand : Nat} {exponent : Int}
    (canonical : Canonical significand exponent) (nonzero : significand ≠ 0) :
    lastPlace (significand * 2 ^ exponent.toNat) (2 ^ (-exponent).toNat) = exponent := by
  obtain ⟨below, least, greatest, normal⟩ := canonical
  have value : ((significand * 2 ^ exponent.toNat : Nat) : ℚ) / (2 ^ (-exponent).toNat : Nat) =
      significand * 2 ^ exponent := scaled_div_eq two_pos significand exponent
  have lower : (2 : ℚ) ^ (significand.log2 : Int) ≤ significand := by
    exact_mod_cast Nat.log2_self_le nonzero
  have upper : (significand : ℚ) < 2 ^ ((significand.log2 : Int) + 1) := by
    exact_mod_cast Nat.lt_log2_self
  have order : Int.log 2 ((significand : ℚ) * 2 ^ exponent) = significand.log2 + exponent := by
    apply log_eq_of_bounds
    · rw [zpow_add₀ two_ne_zero]
      gcongr
    · rw [add_right_comm, zpow_add₀ two_ne_zero]
      gcongr
  rw [lastPlace, binaryOrder_eq_log (by positivity) (by positivity), value, order]
  have atMost : significand.log2 < 53 := (Nat.log2_lt nonzero).mpr below
  rcases normal with large | rfl
  · have atLeast : 52 ≤ significand.log2 := (Nat.le_log2 nonzero).mpr large
    omega
  · omega

/-- A number that binary64 holds is its own rounding. -/
theorem ofScaled_eq_finite (negative : Bool) {significand : Nat} {exponent : Int}
    (canonical : Canonical significand exponent) (nonzero : significand ≠ 0) :
    ofScaled negative significand exponent = .finite negative significand exponent canonical := by
  have notZero : significand * 2 ^ exponent.toNat ≠ 0 := by positivity
  have exactly : nearest (significand * 2 ^ exponent.toNat * 2 ^ (-exponent).toNat)
      (2 ^ (-exponent).toNat * 2 ^ exponent.toNat) = significand := by
    rw [mul_assoc, mul_comm (2 ^ (-exponent).toNat)]
    exact nearest_mul_right (by positivity) significand
  have small : significand ≠ 2 ^ 53 := canonical.1.ne
  simp only [ofScaled, ofRatio, if_neg notZero, lastPlace_of_canonical canonical nonzero, exactly,
    if_neg small, pack, dif_pos canonical]

theorem neg_pack (negative : Bool) (significand : Nat) (exponent : Int) :
    (pack negative significand exponent).neg = pack (!negative) significand exponent := by
  unfold pack
  split <;> rfl

theorem neg_ofRatio (negative : Bool) (n d : Nat) :
    (ofRatio negative n d).neg = ofRatio (!negative) n d := by
  simp only [ofRatio]
  split
  · rfl
  · split <;> rw [neg_pack]

/-! ## Decimals -/

theorem ofRatio_eq_infinity (negative : Bool) {n d : Nat} (denominator : 0 < d)
    (large : 2 ^ 1024 * d ≤ n) : ofRatio negative n d = .infinity negative := by
  have numerator : 0 < n := lt_of_lt_of_le (by positivity) large
  have order : 1024 ≤ binaryOrder n d := by
    rw [binaryOrder_eq_log numerator denominator, ← Int.zpow_le_iff_le_log (by norm_num)
      (by positivity), le_div_iff₀ (by positivity)]
    exact_mod_cast large
  have overflow : ∀ (significand : Nat) {exponent : Int}, 972 ≤ exponent →
      pack negative significand exponent = .infinity negative := by
    intro significand exponent beyond
    rw [pack, dif_neg]
    rintro ⟨-, -, greatest, -⟩
    omega
  have place : 972 ≤ lastPlace n d := by
    rw [lastPlace]
    omega
  simp only [ofRatio, if_neg numerator.ne']
  split
  · exact overflow _ (by omega)
  · exact overflow _ place

theorem ofRatio_eq_zero (negative : Bool) {n d : Nat} (small : 2 * (n * 2 ^ 1074) < d) :
    ofRatio negative n d = zero negative := by
  by_cases noValue : n = 0
  · simp [ofRatio, noValue]
  · have numerator : 0 < n := Nat.pos_of_ne_zero noValue
    have denominator : 0 < d := lt_of_le_of_lt (Nat.zero_le _) small
    have below : n * 2 ^ 1074 < d := by omega
    have order : binaryOrder n d < -1074 := by
      rw [binaryOrder_eq_log numerator denominator, ← Int.lt_zpow_iff_log_lt (by norm_num)
        (by positivity), div_lt_iff₀ (by positivity), zpow_neg, ← div_eq_inv_mul,
        lt_div_iff₀ (by positivity)]
      exact_mod_cast below
    have place : lastPlace n d = -1074 := by
      rw [lastPlace]
      omega
    have significand : nearest (n * 2 ^ 1074) d = 0 := by
      rw [nearest, Nat.mod_eq_of_lt below, Nat.div_eq_of_lt below, if_pos (Or.inl small)]
    have exponent : (-(-1074 : Int)).toNat = 1074 := rfl
    have whole : (-1074 : Int).toNat = 0 := rfl
    simp only [ofRatio, if_neg noValue, place, exponent, whole, pow_zero, mul_one, significand]
    rfl

section Decades

variable (negative : Bool) {digits : Nat} {exponent : Int}

/-- Above the decades of binary64 every decimal overflows. -/
theorem ofRatio_of_large_order (nonzero : digits ≠ 0)
    (large : 310 < ((Nat.toDigits 10 digits).length : Int) + exponent) :
    ofRatio negative (digits * 10 ^ exponent.toNat) (10 ^ (-exponent).toNat) =
      .infinity negative := by
  have powers : 2 ^ 1024 ≤ 10 ^ 310 := by decide +kernel
  have leading := Numeric.pow_length_toDigits_le nonzero
  apply ofRatio_eq_infinity negative (by positivity)
  calc 2 ^ 1024 * 10 ^ (-exponent).toNat
      ≤ 10 ^ 310 * 10 ^ (-exponent).toNat := by gcongr
    _ = 10 ^ (310 + (-exponent).toNat) := (pow_add _ _ _).symm
    _ ≤ 10 ^ ((Nat.toDigits 10 digits).length - 1 + exponent.toNat) := by
        apply Nat.pow_le_pow_right (by norm_num)
        omega
    _ = 10 ^ ((Nat.toDigits 10 digits).length - 1) * 10 ^ exponent.toNat := pow_add _ _ _
    _ ≤ digits * 10 ^ exponent.toNat := by gcongr

/-- Below the decades of binary64 every decimal vanishes. -/
theorem ofRatio_of_small_order
    (small : ((Nat.toDigits 10 digits).length : Int) + exponent < -330) :
    ofRatio negative (digits * 10 ^ exponent.toNat) (10 ^ (-exponent).toNat) = zero negative := by
  have powers : 2 * 2 ^ 1074 ≤ 10 ^ 330 := by decide +kernel
  have below := Numeric.lt_pow_length_toDigits digits
  have whole : exponent.toNat = 0 := by omega
  apply ofRatio_eq_zero
  rw [whole, pow_zero, mul_one]
  calc 2 * (digits * 2 ^ 1074) = digits * (2 * 2 ^ 1074) := Nat.mul_left_comm _ _ _
    _ < 10 ^ (Nat.toDigits 10 digits).length * 10 ^ 330 :=
        Nat.mul_lt_mul_of_lt_of_le below powers (by positivity)
    _ = 10 ^ ((Nat.toDigits 10 digits).length + 330) := (pow_add _ _ _).symm
    _ ≤ 10 ^ (-exponent).toNat := by
        apply Nat.pow_le_pow_right (by norm_num)
        omega

end Decades

/-- Reading a decimal rounds its exact value. -/
theorem ofDecimal_eq_ofRatio (negative : Bool) (digits : Nat) (exponent : Int) :
    ofDecimal negative digits exponent =
      ofRatio negative (digits * 10 ^ exponent.toNat) (10 ^ (-exponent).toNat) := by
  unfold ofDecimal
  dsimp only
  split
  · rename_i noValue
    simp [ofRatio, noValue]
  · rename_i nonzero
    split
    · rename_i large
      exact (ofRatio_of_large_order negative nonzero large).symm
    · split
      · rename_i small
        exact (ofRatio_of_small_order negative small).symm
      · rfl

/-- Zeros at the end of a decimal move into its power of ten. -/
theorem ofDecimal_mul_pow (negative : Bool) (digits zeros : Nat) (exponent : Int) :
    ofDecimal negative (digits * 10 ^ zeros) exponent =
      ofDecimal negative digits (exponent + zeros) := by
  rw [ofDecimal_eq_ofRatio, ofDecimal_eq_ofRatio]
  apply ofRatio_congr negative (by positivity) (by positivity)
  simp only [mul_assoc, ← pow_add]
  congr 2
  omega

theorem neg_ofDecimal (negative : Bool) (digits : Nat) (exponent : Int) :
    (ofDecimal negative digits exponent).neg = ofDecimal (!negative) digits exponent := by
  rw [ofDecimal_eq_ofRatio, ofDecimal_eq_ofRatio, neg_ofRatio]

end TreeQuery.Double
