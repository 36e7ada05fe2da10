import TreeQuery.Proofs.Number.Large

/-!
# Finite results

What rounds to a double and is no greater than a finite double is finite. So integers up to the
greatest power of ten of the doubles are, and a division by at least one leaves the finite doubles
closed.
-/

namespace TreeQuery.Double

theorem magnitude_nonneg (x : Double) : 0 ≤ x.magnitude := by
  cases x <;> simp only [magnitude] <;> positivity

theorem isNaN_of_isFinite {x : Double} (isFinite : x.isFinite = true) : x.isNaN = false := by
  cases x <;> first | rfl | cases isFinite

theorem isFinite_of_not_isInfinite {x : Double} (isNumber : x.isNaN = false)
    (notInfinite : x.isInfinite = false) : x.isFinite = true := by
  cases x with
  | nan => cases isNumber
  | infinity _ => cases notInfinite
  | finite _ _ _ _ => rfl

theorem isFinite_neg (x : Double) : x.neg.isFinite = x.isFinite := by
  cases x <;> rfl

theorem exists_isSigned {x : Double} (isNumber : x.isNaN = false) :
    ∃ negative, x.IsSigned negative := by
  cases x with
  | nan => cases isNumber
  | infinity negative => exact ⟨negative, rfl⟩
  | finite negative _ _ _ => exact ⟨negative, rfl⟩

/-- Rounding does not pass over a double: the double would be nearer. -/
theorem IsRounding.magnitude_le_of_le {x y : Double} {negative : Bool} {q : ℚ}
    (rounding : x.IsRounding negative q) (isNumber : y.isNaN = false) (atMost : q ≤ y.magnitude) :
    x.magnitude ≤ y.magnitude := by
  have nearer := rounding.nearest y isNumber
  rw [abs_of_nonpos (sub_nonpos.mpr atMost)] at nearer
  have distance := neg_abs_le (q - x.magnitude)
  linarith

theorem IsRounding.isFinite {x y : Double} {negative : Bool} {q : ℚ}
    (rounding : x.IsRounding negative q) (isFinite : y.isFinite = true)
    (atMost : q ≤ y.magnitude) : x.isFinite = true := by
  have bounded := rounding.magnitude_le_of_le (isNaN_of_isFinite isFinite) atMost
  cases x with
  | nan => exact rounding.signed.elim
  | infinity sign =>
      cases y with
      | nan => cases isFinite
      | infinity _ => cases isFinite
      | finite sign' _ _ canonical =>
          exact absurd (magnitude_finite_lt sign' canonical) bounded.not_gt
  | finite _ _ _ _ => rfl

/-- The greatest finite double. -/
def greatest : Double :=
  .finite false (2 ^ (53 : Nat) - 1) 971 (by decide)

theorem pow_le_magnitude_greatest : ((10 ^ 308 : Nat) : ℚ) ≤ greatest.magnitude := by
  have integers : 10 ^ 308 ≤ (2 ^ 53 - 1) * 2 ^ 971 := by decide +kernel
  have rationals : ((10 ^ 308 : Nat) : ℚ) ≤ ((2 ^ 53 - 1 : Nat) : ℚ) * 2 ^ (971 : Nat) := by
    exact_mod_cast integers
  exact rationals

theorem isFinite_ofNat_of_le {n : Nat} (atMost : n ≤ 10 ^ 308) : (ofNat n).isFinite = true := by
  have bound : (n : ℚ) ≤ greatest.magnitude :=
    le_trans (by exact_mod_cast atMost) pow_le_magnitude_greatest
  exact (isRounding_ofNat n).isFinite rfl bound

theorem isFinite_ofInt_of_le {n : Int} (atMost : n.natAbs ≤ 10 ^ 308) :
    (ofInt n).isFinite = true := by
  have bound : (n.natAbs : ℚ) ≤ greatest.magnitude :=
    le_trans (by exact_mod_cast atMost) pow_le_magnitude_greatest
  exact (isRounding_ofInt n).isFinite rfl bound

theorem one_le_magnitude_ofNat {n : Nat} (positive : 0 < n) : 1 ≤ (ofNat n).magnitude := by
  have one : (ofNat 1).Holds (1 : Nat) := holds_ofNat (by norm_num)
  have magnitude : (ofNat 1).magnitude = 1 := by simpa using one.magnitude_eq
  rw [← magnitude]
  refine (isRounding_ofNat n).magnitude_ge (isNaN_of_isFinite one.isFinite) ?_
  rw [magnitude]
  exact_mod_cast positive

/-- A quotient of finite numbers is the rounding of the exact one. -/
theorem isRounding_div {x y : Double} {s t : Bool} (left : x.isFinite = true)
    (leftSigned : x.IsSigned s) (right : y.isFinite = true) (rightSigned : y.IsSigned t)
    (nonzero : y.magnitude ≠ 0) :
    (x.div y).IsRounding (s != t) (x.magnitude / y.magnitude) := by
  cases x with
  | nan => cases left
  | infinity _ => cases left
  | finite sign m e canonical =>
      cases y with
      | nan => cases right
      | infinity _ => cases right
      | finite sign' n f canonical' =>
          obtain rfl : sign = s := leftSigned
          obtain rfl : sign' = t := rightSigned
          have divisor : n ≠ 0 := by
            rintro rfl
            simp at nonzero
          have rounding := isRounding_ofRatio (sign != sign') (m * 2 ^ (e - f).toNat)
            (show 0 < n * 2 ^ (f - e).toNat by positivity)
          have scaled := scaled_div_eq two_pos m (e - f)
          rw [neg_sub] at scaled
          have quotient : ((m * 2 ^ (e - f).toNat : Nat) : ℚ) / (n * 2 ^ (f - e).toNat : Nat) =
              m * 2 ^ e / (n * 2 ^ f) := by
            rw [Nat.cast_mul n, mul_comm (n : ℚ), ← div_div, scaled]
            push_cast
            rw [zpow_sub₀ two_ne_zero]
            field_simp
          rw [quotient] at rounding
          rwa [div, if_neg divisor]

/-- Nothing overflows in a division by at least one. -/
theorem isFinite_div {x y : Double} (left : x.isFinite = true) (right : y.isFinite = true)
    (atLeastOne : 1 ≤ y.magnitude) : (x.div y).isFinite = true := by
  obtain ⟨s, leftSigned⟩ := exists_isSigned (isNaN_of_isFinite left)
  obtain ⟨t, rightSigned⟩ := exists_isSigned (isNaN_of_isFinite right)
  have rounding := isRounding_div left leftSigned right rightSigned (by linarith)
  exact rounding.isFinite left (div_le_self x.magnitude_nonneg atLeastOne)

/-- A product of finite numbers is finite or has overflowed. -/
theorem isFinite_mul {x y : Double} (left : x.isFinite = true) (right : y.isFinite = true)
    (notInfinite : (x.mul y).isInfinite = false) : (x.mul y).isFinite = true := by
  obtain ⟨s, leftSigned⟩ := exists_isSigned (isNaN_of_isFinite left)
  obtain ⟨t, rightSigned⟩ := exists_isSigned (isNaN_of_isFinite right)
  have rounding := isRounding_mul left leftSigned right rightSigned
  exact isFinite_of_not_isInfinite rounding.isNumber notInfinite

end TreeQuery.Double
