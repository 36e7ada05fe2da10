import TreeQuery.Proofs.Number.Exact
import TreeQuery.Proofs.Number.RoundTrip

/-!
# Equality of doubles

Two doubles are equal when neither is not-a-number and they are one number or two zeros. So equality
is symmetric and transitive on all doubles, and reflexive on all but not-a-number.
-/

namespace TreeQuery.Double

/-- Counted in a common unit, two finite numbers are the same where their exact values are. -/
theorem same_finite_iff (s t : Bool) {m n : Nat} {e f : Int} (canonical : Canonical m e)
    (canonical' : Canonical n f) :
    (finite s m e canonical).same (finite t n f canonical') = true ↔
      withSign s (m * 2 ^ e) = withSign t (n * 2 ^ f) := by
  have unit : (2 : ℚ) ^ min e f ≠ 0 := by positivity
  rw [← inUnits_mul_zpow s m (min_le_left e f), ← inUnits_mul_zpow t n (min_le_right e f),
    mul_left_inj' unit, Int.cast_inj]
  simp [same, compare?]

/-- Two numbers of different signs have one value only where both are zero. -/
theorem eq_zero_of_withSign {s t : Bool} {p q : ℚ} (differ : s ≠ t) (left : 0 ≤ p) (right : 0 ≤ q)
    (same : withSign s p = withSign t q) : p = 0 ∧ q = 0 := by
  cases s <;> cases t <;> simp only [withSign] at same differ <;> grind

theorem isZero_iff_magnitude {x : Double} (isNumber : x.isNaN = false) :
    x.isZero = true ↔ x.magnitude = 0 := by
  cases x with
  | nan => cases isNumber
  | infinity negative => simp [isZero]
  | finite negative significand exponent canonical => simp [isZero_finite, zpow_ne_zero]

theorem isNaN_of_isZero {x : Double} (isZero : x.isZero = true) : x.isNaN = false := by
  obtain ⟨negative, rfl⟩ := eq_zero_of_isZero isZero
  rfl

/-- Equal numbers are one number or two zeros. -/
theorem same_iff {x y : Double} :
    x.same y = true ↔
      x.isNaN = false ∧ (x = y ∨ x.isZero = true ∧ y.isZero = true) := by
  constructor
  · intro equal
    cases x with
    | nan => cases equal
    | infinity s =>
        refine ⟨rfl, Or.inl ?_⟩
        cases y with
        | nan => cases equal
        | infinity t => cases s <;> cases t <;> first | rfl | cases equal
        | finite t n f canonical => cases s <;> cases equal
    | finite s m e canonical =>
        refine ⟨rfl, ?_⟩
        cases y with
        | nan => cases equal
        | infinity t => cases t <;> cases equal
        | finite t n f canonical' =>
            have values := (same_finite_iff s t canonical canonical').mp equal
            by_cases signs : s = t
            · subst signs
              refine Or.inl (eq_of_magnitude_eq rfl rfl ?_)
              have magnitudes := congrArg (|·|) values
              simpa only [abs_withSign s (show (0 : ℚ) ≤ m * 2 ^ e by positivity),
                abs_withSign s (show (0 : ℚ) ≤ n * 2 ^ f by positivity), magnitude_finite]
                using magnitudes
            · obtain ⟨left, right⟩ :=
                eq_zero_of_withSign signs (by positivity) (by positivity) values
              exact Or.inr
                ⟨(isZero_iff_magnitude rfl).mpr left, (isZero_iff_magnitude rfl).mpr right⟩
  · rintro ⟨isNumber, rfl | ⟨left, right⟩⟩
    · exact same_self isNumber
    · obtain ⟨s, rfl⟩ := eq_zero_of_isZero left
      obtain ⟨t, rfl⟩ := eq_zero_of_isZero right
      exact same_zeros s t

theorem same_symm {x y : Double} (equal : x.same y = true) : y.same x = true := by
  obtain ⟨isNumber, rfl | ⟨left, right⟩⟩ := same_iff.mp equal
  · exact equal
  · exact same_iff.mpr ⟨isNaN_of_isZero right, Or.inr ⟨right, left⟩⟩

theorem same_trans {x y z : Double} (first : x.same y = true) (second : y.same z = true) :
    x.same z = true := by
  obtain ⟨isNumber, rfl | ⟨left, middle⟩⟩ := same_iff.mp first
  · exact second
  · obtain ⟨-, rfl | ⟨-, right⟩⟩ := same_iff.mp second
    · exact first
    · exact same_iff.mpr ⟨isNumber, Or.inr ⟨left, right⟩⟩

end TreeQuery.Double
