import TreeQuery.Number.Arithmetic
import TreeQuery.Proofs.Number.Nearest

/-!
# Exact arithmetic

Sums, products and remainders are roundings of exact values. A multiple of a power of two whose
count fits into a significand is held exactly, so an operation with such a result does not round.
-/

namespace TreeQuery.Double

/-- A magnitude with a sign. -/
def withSign (negative : Bool) (q : ℚ) : ℚ :=
  if negative then -q else q

/-- The exact value of a finite number; zero stands in where there is none. -/
def value : Double → ℚ
  | .finite negative significand exponent _ => withSign negative (significand * 2 ^ exponent)
  | _ => 0

/-- The number is finite and `q` is its exact value. -/
structure Holds (x : Double) (q : ℚ) : Prop where
  isFinite : x.isFinite = true
  value_eq : x.value = q

theorem Holds.exists_eq {x : Double} {q : ℚ} (holds : x.Holds q) :
    ∃ negative significand exponent canonical,
      x = finite negative significand exponent canonical ∧
        q = withSign negative (significand * 2 ^ exponent) := by
  cases x with
  | nan => cases holds.isFinite
  | infinity _ => cases holds.isFinite
  | finite negative significand exponent canonical =>
      exact ⟨negative, significand, exponent, canonical, rfl, holds.value_eq.symm⟩

theorem abs_withSign (negative : Bool) {q : ℚ} (nonnegative : 0 ≤ q) :
    |withSign negative q| = q := by
  cases negative <;> simp [withSign, abs_of_nonneg nonnegative]

theorem Holds.magnitude_eq {x : Double} {q : ℚ} (holds : x.Holds q) : x.magnitude = |q| := by
  obtain ⟨negative, significand, exponent, canonical, rfl, rfl⟩ := holds.exists_eq
  rw [abs_withSign negative (by positivity), magnitude_finite]

/-- A finite number is held with the sign and the magnitude it has. -/
theorem holds_magnitude {x : Double} {negative : Bool} (isFinite : x.isFinite = true)
    (isSigned : x.IsSigned negative) : x.Holds (withSign negative x.magnitude) := by
  cases x with
  | nan => cases isFinite
  | infinity _ => cases isFinite
  | finite sign significand exponent canonical =>
      obtain rfl : sign = negative := isSigned
      exact ⟨rfl, rfl⟩

/-! ## What fits into a significand -/

/-- A count of places that fits into a significand is a finite number. The count is doubled and the
place halved until the leading bit is set or the least place is reached. -/
theorem exists_magnitude_eq (negative : Bool) (count : Nat) (place : Int) (fits : count < 2 ^ 53)
    (least : -1074 ≤ place) (greatest : place ≤ 971) :
    ∃ x : Double, x.isFinite = true ∧ x.IsSigned negative ∧ x.magnitude = count * 2 ^ place := by
  obtain ⟨steps, rfl⟩ : ∃ steps : Nat, place = -1074 + steps :=
    ⟨(place + 1074).toNat, by omega⟩
  induction steps generalizing count with
  | zero => exact ⟨finite negative count _ ⟨fits, by omega, by omega, Or.inr rfl⟩, rfl, rfl, rfl⟩
  | succ steps induction =>
      by_cases normal : 2 ^ 52 ≤ count
      · exact ⟨finite negative count _ ⟨fits, least, greatest, Or.inl normal⟩, rfl, rfl, rfl⟩
      · obtain ⟨x, isFinite, isSigned, same⟩ :=
          induction (count * 2) (by omega) (by omega) (by omega)
        refine ⟨x, isFinite, isSigned, ?_⟩
        have power : (2 : ℚ) ^ (-1074 + ((steps + 1 : Nat) : Int)) =
            2 * 2 ^ (-1074 + (steps : Int)) := by
          rw [← zpow_one_add₀ two_ne_zero]
          congr 1
          push_cast
          ring
        rw [same, power]
        push_cast
        ring

/-- A number is the rounding of its own magnitude. -/
theorem isRounding_magnitude {x : Double} {negative : Bool} (isSigned : x.IsSigned negative) :
    x.IsRounding negative x.magnitude where
  signed := isSigned
  nearest y _ := by
    rw [sub_self, abs_zero]
    exact abs_nonneg _
  even y _ differs tie := by
    rw [sub_self, abs_zero, abs_eq_zero, sub_eq_zero] at tie
    exact absurd tie.symm differs

theorem isRounding_ofScaled (negative : Bool) (significand : Nat) (exponent : Int) :
    (ofScaled negative significand exponent).IsRounding negative (significand * 2 ^ exponent) := by
  have exactly : ((significand * 2 ^ exponent.toNat : Nat) : ℚ) / (2 ^ (-exponent).toNat : Nat) =
      significand * 2 ^ exponent := scaled_div_eq two_pos significand exponent
  rw [← exactly]
  exact isRounding_ofRatio negative _ (by positivity)

namespace IsRounding

variable {x : Double} {negative : Bool} {q : ℚ}

/-- What fits into a significand is not rounded. -/
theorem holds (rounding : x.IsRounding negative q) (count : Nat) (place : Int)
    (fits : count < 2 ^ 53) (least : -1074 ≤ place) (greatest : place ≤ 971)
    (same : q = count * 2 ^ place) : x.Holds (withSign negative q) := by
  obtain ⟨y, isFinite, isSigned, exactly⟩ :=
    exists_magnitude_eq negative count place fits least greatest
  have magnitude : y.magnitude = q := exactly.trans same.symm
  have isRounding := isRounding_magnitude isSigned
  rw [magnitude] at isRounding
  obtain rfl : x = y := rounding.unique isRounding
  rw [← magnitude]
  exact holds_magnitude isFinite isSigned

/-- Small integers are not rounded. -/
theorem holds_nat {n : Nat} (rounding : x.IsRounding negative n) (fits : n < 2 ^ 53) :
    x.Holds (withSign negative n) :=
  rounding.holds n 0 fits (by norm_num) (by norm_num) (by simp)

end IsRounding

/-! ## Integers -/

theorem isRounding_ofNat (n : Nat) : (ofNat n).IsRounding false n := by
  have rounding := isRounding_ofRatio false n one_pos
  rwa [Nat.cast_one, div_one] at rounding

theorem isRounding_nat_iff {x : Double} {n : Nat} : x.IsRounding false n ↔ ofNat n = x := by
  constructor
  · exact (isRounding_ofNat n).unique
  · rintro rfl
    exact isRounding_ofNat n

theorem isRounding_ofInt (n : Int) : (ofInt n).IsRounding (decide (n < 0)) n.natAbs := by
  have rounding := isRounding_ofRatio (decide (n < 0)) n.natAbs one_pos
  rwa [Nat.cast_one, div_one] at rounding

theorem holds_ofNat {n : Nat} (fits : n < 2 ^ 53) : (ofNat n).Holds n :=
  (isRounding_ofNat n).holds_nat fits

theorem withSign_natAbs (n : Int) : withSign (decide (n < 0)) n.natAbs = n := by
  rw [Nat.cast_natAbs, withSign]
  split
  · rename_i negative
    rw [abs_of_neg (of_decide_eq_true negative)]
    push_cast
    ring
  · rename_i nonnegative
    rw [abs_of_nonneg (not_lt.mp fun negative => nonnegative (decide_eq_true negative))]

theorem holds_ofInt {n : Int} (fits : n.natAbs < 2 ^ 53) : (ofInt n).Holds n := by
  have holds := (isRounding_ofInt n).holds_nat fits
  rwa [withSign_natAbs] at holds

/-! ## Sums -/

/-- A number counted in units of a smaller power of two. -/
theorem inUnits_mul_zpow (negative : Bool) (significand : Nat) {exponent unit : Int}
    (atMost : unit ≤ exponent) :
    (inUnits negative significand exponent unit : ℚ) * 2 ^ unit =
      withSign negative (significand * 2 ^ exponent) := by
  have power : (2 : ℚ) ^ exponent = 2 ^ (exponent - unit).toNat * 2 ^ unit := by
    rw [← zpow_natCast, ← zpow_add₀ two_ne_zero]
    congr 1
    omega
  cases negative <;> simp [inUnits, withSign, power] <;> ring

/-- A sum other than zero is the rounding of the exact one. -/
theorem isRounding_add {x y : Double} {p q : ℚ} (left : x.Holds p) (right : y.Holds q)
    (nonzero : p + q ≠ 0) : (x.add y).IsRounding (decide (p + q < 0)) |p + q| := by
  obtain ⟨s, m, e, canonical, rfl, rfl⟩ := left.exists_eq
  obtain ⟨t, n, f, canonical', rfl, rfl⟩ := right.exists_eq
  rw [← inUnits_mul_zpow s m (min_le_left e f), ← inUnits_mul_zpow t n (min_le_right e f),
    ← add_mul] at nonzero ⊢
  simp only [add]
  generalize min e f = unit at *
  generalize inUnits s m e unit = a at *
  generalize inUnits t n f unit = b at *
  have positive : (0 : ℚ) < 2 ^ unit := by positivity
  have sumNonzero : a + b ≠ 0 := by
    intro sum
    apply nonzero
    rw [← Int.cast_add, sum, Int.cast_zero, zero_mul]
  have sign : ((a : ℚ) + b) * 2 ^ unit < 0 ↔ a + b < 0 := by
    rw [mul_neg_iff, and_iff_left positive, or_iff_right (by simp [positive.le])]
    exact_mod_cast Iff.rfl
  have size : |((a : ℚ) + b) * 2 ^ unit| = (a + b).natAbs * 2 ^ unit := by
    rw [abs_mul, abs_of_pos positive, Nat.cast_natAbs]
    push_cast
    rfl
  simp only [if_neg sumNonzero, sign, size]
  exact isRounding_ofScaled _ _ _

/-- A sum that fits into a significand is exact. -/
theorem holds_add {x y : Double} {p q : ℚ} (left : x.Holds p) (right : y.Holds q)
    (nonzero : p + q ≠ 0) (count : Nat) (place : Int) (fits : count < 2 ^ 53)
    (least : -1074 ≤ place) (greatest : place ≤ 971) (same : |p + q| = count * 2 ^ place) :
    (x.add y).Holds (p + q) := by
  have holds := (isRounding_add left right nonzero).holds count place fits least greatest same
  have value : withSign (decide (p + q < 0)) |p + q| = p + q := by
    rw [withSign]
    split
    · rename_i negative
      rw [abs_of_neg (of_decide_eq_true negative), neg_neg]
    · rename_i nonnegative
      rw [abs_of_nonneg (not_lt.mp fun negative => nonnegative (decide_eq_true negative))]
  rwa [value] at holds

/-! ## Products -/

/-- A product is the rounding of the exact one. -/
theorem isRounding_mul {x y : Double} {s t : Bool} (left : x.isFinite = true)
    (leftSigned : x.IsSigned s) (right : y.isFinite = true) (rightSigned : y.IsSigned t) :
    (x.mul y).IsRounding (s != t) (x.magnitude * y.magnitude) := by
  cases x with
  | nan => cases left
  | infinity _ => cases left
  | finite sign m e canonical =>
      cases y with
      | nan => cases right
      | infinity _ => cases right
      | finite sign' n f canonical' =>
          obtain rfl : sign = s := leftSigned
          obtain rfl : sign' = t := rightSigned
          have rounding := isRounding_ofScaled (sign != sign') (m * n) (e + f)
          have product : ((m * n : Nat) : ℚ) * 2 ^ (e + f) = m * 2 ^ e * (n * 2 ^ f) := by
            rw [zpow_add₀ two_ne_zero]
            push_cast
            ring
          rwa [product] at rounding

/-! ## Remainders -/

/-- A remainder does not depend on the unit in which both numbers are counted. -/
theorem mod_mul_unit {a b m n : Nat} {unit : ℚ} (positive : 0 < unit) (left : (a : ℚ) = m * unit)
    (right : (b : ℚ) = n * unit) : ((a % b : Nat) : ℚ) = (m % n : Nat) * unit := by
  have quotient : a / b = m / n := by
    rw [← Rat.natFloor_natCast_div_natCast, ← Rat.natFloor_natCast_div_natCast, left, right,
      mul_div_mul_right _ _ positive.ne']
  have exactly : ((b * (a / b) + a % b : Nat) : ℚ) = (n * (m / n) + m % n : Nat) * unit := by
    rw [Nat.div_add_mod, Nat.div_add_mod, left]
  rw [quotient] at exactly
  push_cast at exactly
  rw [right] at exactly
  linarith

/-- The magnitude of an integer with its sign. -/
theorem natAbs_eq_of_withSign {negative : Bool} {a : Int} {q : ℚ} (nonnegative : 0 ≤ q)
    (same : (a : ℚ) = withSign negative q) :
    (a.natAbs : ℚ) = q ∧ a = if negative then -(a.natAbs : Int) else a.natAbs := by
  have size : (a.natAbs : ℚ) = q := by
    rw [Nat.cast_natAbs, Int.cast_abs, same, abs_withSign negative nonnegative]
  refine ⟨size, ?_⟩
  rw [← size] at same
  generalize a.natAbs = n at *
  cases negative with
  | false =>
      rw [withSign, if_neg Bool.false_ne_true] at same
      simpa using (by exact_mod_cast same : a = n)
  | true =>
      rw [withSign, if_pos rfl] at same
      simpa using (by exact_mod_cast same : a = -n)

/-- The remainder takes the sign of the dividend. -/
theorem withSign_mod {s t : Bool} {a b : Int} (left : a = if s then -(a.natAbs : Int) else a.natAbs)
    (right : b = if t then -(b.natAbs : Int) else b.natAbs) :
    withSign s (a.natAbs % b.natAbs : Nat) = (a.tmod b : Int) := by
  generalize a.natAbs = m at *
  generalize b.natAbs = n at *
  subst left right
  have natural : (((m : Int).tmod n : Int) : ℚ) = (m % n : Nat) := by
    rw [← Int.ofNat_tmod, Int.cast_natCast]
  cases s <;> cases t <;> simp [withSign, Int.neg_tmod, Int.tmod_neg, natural]

/-- The remainder of integers is exact: it is less than the divisor and no more than the dividend,
and one of the two is counted in the finer places of both. -/
theorem holds_rem {x y : Double} {a b : Int} (left : x.Holds a) (right : y.Holds b)
    (nonzero : b ≠ 0) : (x.rem y).Holds (a.tmod b : Int) := by
  obtain ⟨s, m, e, canonical, rfl, dividend⟩ := left.exists_eq
  obtain ⟨t, n, f, canonical', rfl, divisor⟩ := right.exists_eq
  obtain ⟨dividendSize, dividendSign⟩ := natAbs_eq_of_withSign (by positivity) dividend
  obtain ⟨divisorSize, divisorSign⟩ := natAbs_eq_of_withSign (by positivity) divisor
  have divisorNonzero : n ≠ 0 := by
    rintro rfl
    simp [nonzero] at divisorSize
  have counted (k : Nat) {g : Int} (atMost : min e f ≤ g) :
      (k : ℚ) * 2 ^ g = (k * 2 ^ (g - min e f).toNat : Nat) * 2 ^ min e f := by
    have same := inUnits_mul_zpow false k atMost
    simpa [inUnits, withSign] using same.symm
  rw [counted m (min_le_left e f)] at dividendSize
  rw [counted n (min_le_right e f)] at divisorSize
  have dividendPlaces : (e - min e f).toNat = (e - f).toNat := by omega
  have divisorPlaces : (f - min e f).toNat = (f - e).toNat := by omega
  have remainder := mod_mul_unit (by positivity) dividendSize divisorSize
  rw [dividendPlaces, divisorPlaces] at remainder
  have fits : m * 2 ^ (e - f).toNat % (n * 2 ^ (f - e).toNat) < 2 ^ 53 := by
    rcases le_total e f with coarse | fine
    · have whole : (e - f).toNat = 0 := by omega
      rw [whole, pow_zero, mul_one]
      exact lt_of_le_of_lt (Nat.mod_le _ _) canonical.1
    · have whole : (f - e).toNat = 0 := by omega
      rw [whole, pow_zero, mul_one]
      exact (Nat.mod_lt _ (Nat.pos_of_ne_zero divisorNonzero)).trans canonical'.1
  have least : -1074 ≤ min e f := le_min canonical.2.1 canonical'.2.1
  have greatest : min e f ≤ 971 := (min_le_left e f).trans canonical.2.2.1
  have holds := (isRounding_ofScaled s _ (min e f)).holds _ _ fits least greatest rfl
  rw [← remainder, withSign_mod dividendSign divisorSign] at holds
  simpa only [rem, if_neg divisorNonzero] using holds

end TreeQuery.Double
