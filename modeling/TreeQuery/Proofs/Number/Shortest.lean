import Mathlib.Data.Nat.Cast.Order.Field
import TreeQuery.Proofs.Number.Nearest
import TreeQuery.Proofs.Number.RoundTrip

/-!
# The shortest decimal of a number

The decimal chosen for a number reads back as it, no decimal with fewer digits does, and none with
as many digits that does is nearer. The search looks only at the two neighbours of the number on
each grid of decimals. That is enough, because what lies between a number and a decimal that reads
back as it reads back as well; and it ends, because two doubles are never closer than the finest
grid. The text of the number is this decimal in one of four layouts.
-/

namespace TreeQuery

namespace Decimal

/-- The decimal reads as `x`, none with fewer digits does, and none with as many digits that does is
nearer to `x`. -/
structure IsShortest (decimal : Decimal) (x : Double) : Prop where
  rounds : x.IsRounding false decimal.value
  shortest : ∀ other : Decimal, other.Proper → x.IsRounding false other.value →
    decimal.digits.length ≤ other.digits.length
  nearest : ∀ other : Decimal, other.Proper → other.digits.length = decimal.digits.length →
    x.IsRounding false other.value →
      |x.magnitude - decimal.value| ≤ |x.magnitude - other.value|

/-! ## The decade of a number -/

theorem decade_bounds {n d : Nat} (numerator : 0 < n) (denominator : 0 < d) :
    (10 : ℚ) ^ (decade n d - 1) ≤ n / d ∧ (n / d : ℚ) < 10 ^ decade n d := by
  have compared (k : Int) : (10 : ℚ) ^ k ≤ n / d ↔ d * 10 ^ k.toNat ≤ n * 10 ^ (-k).toNat :=
    Double.zpow_le_div_iff (by norm_num : 0 < 10) denominator k
  have whole (k : Nat) : (10 : ℚ) ^ (k : Int) ≤ n / d ↔ d * 10 ^ k ≤ n := by
    simpa using compared k
  have fraction (k : Nat) : (10 : ℚ) ^ (-(k : Int)) ≤ n / d ↔ d ≤ n * 10 ^ k := by
    simpa using compared (-k)
  rw [decade]
  split
  · rename_i large
    obtain ⟨places, length, lower, upper⟩ :=
      Numeric.exists_length_toDigits (Nat.div_pos large denominator).ne'
    rw [Nat.le_div_iff_mul_le denominator] at lower
    rw [Nat.div_lt_iff_lt_mul denominator] at upper
    rw [length, Nat.cast_add_one, add_sub_cancel_right, whole]
    refine ⟨by linarith, not_le.mp fun atLeast => ?_⟩
    have := (whole (places + 1)).mp (by exact_mod_cast atLeast)
    linarith
  · rename_i small
    obtain ⟨places, length, lower, upper⟩ :=
      Numeric.exists_length_toDigits (Nat.div_pos (Nat.le_of_not_le small) numerator).ne'
    rw [Nat.le_div_iff_mul_le numerator] at lower
    rw [Nat.div_lt_iff_lt_mul numerator] at upper
    simp only [length, Nat.add_sub_cancel, Nat.cast_add_one]
    split
    · -- A power of ten is the least number of its decade.
      rename_i atMost
      have quotient : (n / d : ℚ) = 10 ^ (-(places : Int)) := by
        have power : d = n * 10 ^ places := by linarith
        rw [power, zpow_neg, zpow_natCast]
        push_cast
        field_simp
      have first : 2 - ((places : Int) + 1) - 1 = -(places : Int) := by ring
      rw [first, quotient]
      exact ⟨le_rfl, zpow_lt_zpow_right₀ (by norm_num) (by omega)⟩
    · rename_i notAtMost
      have first : 1 - ((places : Int) + 1) = -(places : Int) := by ring
      have second : -(places : Int) - 1 = -((places + 1 : Nat) : Int) := by push_cast; ring
      rw [first, second, fraction, ← not_le, fraction]
      exact ⟨by linarith, notAtMost⟩

/-! ## One grid -/

/-- The multiple of `10 ^ unit` at or below `n / d`, counted in this unit. -/
def below (n d : Nat) (unit : Int) : Nat :=
  n * 10 ^ (-unit).toNat / (d * 10 ^ unit.toNat)

/-- The multiple of `10 ^ unit` nearest to `n / d`, counted in this unit. -/
def middle (n d : Nat) (unit : Int) : Nat :=
  Double.nearest (n * 10 ^ (-unit).toNat) (d * 10 ^ unit.toNat)

theorem middle_eq_or (n d : Nat) (unit : Int) :
    middle n d unit = below n d unit ∨ middle n d unit = below n d unit + 1 := by
  unfold middle Double.nearest
  split
  · exact Or.inl rfl
  · exact Or.inr rfl

section Grid

variable {x : Double} {n d : Nat} {unit : Int}

/-- What is found on a grid reads back, and is nearest or a neighbour in place of the nearest. -/
theorem isRounding_of_onGrid {found : Nat} (onGrid : onGrid? x n d unit = some found) :
    x.IsRounding false (found * 10 ^ unit) ∧
      (found = middle n d unit ∨ (¬ x.IsRounding false (middle n d unit * 10 ^ unit) ∧
        (found = below n d unit ∨ found = below n d unit + 1))) := by
  refine ⟨Double.ofDecimal_eq_iff.mp (ofDecimal_of_onGrid onGrid), ?_⟩
  simp only [onGrid?] at onGrid
  split at onGrid
  · exact Or.inl (Option.some.inj onGrid).symm
  · rename_i notMiddle
    have notRounding : ¬ x.IsRounding false (middle n d unit * 10 ^ unit) :=
      fun rounding => notMiddle (decide_eq_true (Double.ofDecimal_eq_iff.mpr rounding))
    refine Or.inr ⟨notRounding, ?_⟩
    split at onGrid
    · exact Or.inl (Option.some.inj onGrid).symm
    · split at onGrid
      · exact Or.inr (Option.some.inj onGrid).symm
      · cases onGrid

/-- Where nothing is found on a grid, neither neighbour reads back. -/
theorem not_isRounding_of_onGrid (none : onGrid? x n d unit = none) :
    ¬ x.IsRounding false (below n d unit * 10 ^ unit) ∧
      ¬ x.IsRounding false ((below n d unit + 1 : Nat) * 10 ^ unit) := by
  simp only [onGrid?] at none
  split at none
  · cases none
  · split at none
    · cases none
    · rename_i notBelow
      split at none
      · cases none
      · rename_i notAbove
        exact ⟨fun rounding => notBelow (decide_eq_true (Double.ofDecimal_eq_iff.mpr rounding)),
          fun rounding => notAbove (decide_eq_true (Double.ofDecimal_eq_iff.mpr rounding))⟩

variable (denominator : 0 < d) (exactly : x.magnitude = n / d)

include denominator exactly

/-- The value of a number counted in units of a grid. -/
theorem magnitude_eq_mul_unit (unit : Int) :
    x.magnitude = (n * 10 ^ (-unit).toNat : Nat) / (d * 10 ^ unit.toNat : Nat) * 10 ^ unit := by
  rw [exactly]
  exact_mod_cast Double.div_eq_div_mul_zpow (by norm_num : 10 ≠ 0) n denominator unit

/-- The neighbours of a number on a grid. -/
theorem grid_bounds (unit : Int) :
    (below n d unit : ℚ) * 10 ^ unit ≤ x.magnitude ∧
      x.magnitude < (below n d unit + 1 : Nat) * 10 ^ unit := by
  have bottom : 0 < d * 10 ^ unit.toNat := by positivity
  rw [magnitude_eq_mul_unit denominator exactly unit, below]
  constructor
  · gcongr
    exact Nat.cast_div_le
  · gcongr
    rw [div_lt_iff₀ (by exact_mod_cast bottom)]
    exact_mod_cast (Nat.div_lt_iff_lt_mul bottom).mp (Nat.lt_succ_self _)

/-- Where a decimal on a grid reads back as a number, so does the neighbour of the number on its
side. -/
theorem neighbour_of_rounding {digits : Nat} (rounding : x.IsRounding false (digits * 10 ^ unit)) :
    (digits ≤ below n d unit ∧ x.IsRounding false (below n d unit * 10 ^ unit)) ∨
      (below n d unit + 1 ≤ digits ∧
        x.IsRounding false ((below n d unit + 1 : Nat) * 10 ^ unit)) := by
  obtain ⟨lower, upper⟩ := grid_bounds denominator exactly unit
  rcases Nat.lt_or_ge (below n d unit) digits with above | atMost
  · refine Or.inr ⟨above, rounding.toward (Or.inl ⟨upper.le, ?_⟩)⟩
    gcongr
    exact above
  · refine Or.inl ⟨atMost, rounding.toward (Or.inr ⟨?_, lower⟩)⟩
    gcongr

/-- Where a grid has a decimal that reads back, one is found. -/
theorem exists_onGrid {digits : Nat} (rounding : x.IsRounding false (digits * 10 ^ unit)) :
    ∃ found, onGrid? x n d unit = some found := by
  apply Option.ne_none_iff_exists'.mp
  intro none
  obtain ⟨notBelow, notAbove⟩ := not_isRounding_of_onGrid none
  rcases neighbour_of_rounding denominator exactly rounding with ⟨-, isBelow⟩ | ⟨-, isAbove⟩
  · exact notBelow isBelow
  · exact notAbove isAbove

/-- None on the grid that reads back is nearer than the one that is found. -/
theorem nearest_of_onGrid {found digits : Nat} (onGrid : onGrid? x n d unit = some found)
    (rounding : x.IsRounding false (digits * 10 ^ unit)) :
    |x.magnitude - found * 10 ^ unit| ≤ |x.magnitude - digits * 10 ^ unit| := by
  have bottom : 0 < d * 10 ^ unit.toNat := by positivity
  obtain ⟨lower, upper⟩ := grid_bounds denominator exactly unit
  obtain ⟨isFound, rfl | ⟨notMiddle, isNeighbour⟩⟩ := isRounding_of_onGrid onGrid
  · have isNearest := Double.isNearest_nearest (n * 10 ^ (-unit).toNat) bottom
    rw [magnitude_eq_mul_unit denominator exactly unit, ← sub_mul, ← sub_mul, abs_mul, abs_mul]
    exact mul_le_mul_of_nonneg_right (isNearest digits).1 (abs_nonneg _)
  · -- The nearest one does not read back, so nothing on its side of the value does.
    have differs : found ≠ middle n d unit := fun same => notMiddle (same ▸ isFound)
    rcases neighbour_of_rounding denominator exactly rounding with
      ⟨atMost, isBelow⟩ | ⟨atLeast, isAbove⟩
    · have isAbove := (middle_eq_or n d unit).resolve_left fun same => notMiddle (same ▸ isBelow)
      obtain rfl := isNeighbour.resolve_right (isAbove ▸ differs)
      have order : (digits : ℚ) * 10 ^ unit ≤ below n d unit * 10 ^ unit := by gcongr
      rw [abs_of_nonneg (by linarith), abs_of_nonneg (by linarith)]
      linarith
    · have isBelow := (middle_eq_or n d unit).resolve_right fun same => notMiddle (same ▸ isAbove)
      obtain rfl := isNeighbour.resolve_left (isBelow ▸ differs)
      have order : ((below n d unit + 1 : Nat) : ℚ) * 10 ^ unit ≤ digits * 10 ^ unit := by gcongr
      rw [abs_of_nonpos (by linarith), abs_of_nonpos (by linarith)]
      linarith

/-- A grid that is fine enough to tell doubles apart has a decimal that reads back. -/
theorem isRounding_middle (signed : x.IsSigned false)
    (fine : 10 ^ 16 * 10 ^ unit ≤ x.magnitude) :
    x.IsRounding false (middle n d unit * 10 ^ unit) := by
  have bottom : 0 < d * 10 ^ unit.toNat := by positivity
  have positive : (0 : ℚ) < 10 ^ unit := by positivity
  have close : |middle n d unit * 10 ^ unit - x.magnitude| ≤ 1 / 2 * 10 ^ unit := by
    rw [abs_sub_comm, magnitude_eq_mul_unit denominator exactly unit, ← sub_mul, abs_mul,
      abs_of_pos positive]
    gcongr
    exact (Double.abs_sub_nearest (n * 10 ^ (-unit).toNat) bottom).1
  have rounding := Double.isRounding_ofDecimal false (middle n d unit) unit
  generalize Double.ofDecimal false (middle n d unit) unit = y at rounding
  have isNumber := Double.isNaN_of_isSigned signed
  have asClose := rounding.nearest x isNumber
  have together : |x.magnitude - y.magnitude| ≤ 10 ^ unit := by
    have triangle := abs_sub_le x.magnitude (middle n d unit * 10 ^ unit) y.magnitude
    rw [abs_sub_comm x.magnitude (middle n d unit * 10 ^ unit)] at triangle
    linarith
  suffices same : x.magnitude = y.magnitude by
    rwa [Double.eq_of_magnitude_eq signed rounding.signed same]
  obtain ⟨upper, lower⟩ := abs_le.mp together
  rcases lt_trichotomy x.magnitude y.magnitude with less | same | greater
  · have gap := Double.magnitude_le_gap isNumber rounding.isNumber less
    linarith
  · exact same
  · have gap := Double.magnitude_le_gap rounding.isNumber isNumber greater
    linarith

/-- A decimal of some number of digits that reads back is matched on the grid of as many digits. -/
theorem exists_isRounding_onGrid (numerator : 0 < n) {places digits : Nat} {exponent : Int}
    (someDigit : 0 < places) (small : digits < 10 ^ places)
    (rounding : x.IsRounding false (digits * 10 ^ exponent)) :
    ∃ onGrid : Nat, x.IsRounding false (onGrid * 10 ^ (decade n d - places)) ∧
      |x.magnitude - onGrid * 10 ^ (decade n d - places)| ≤
        |x.magnitude - digits * 10 ^ exponent| := by
  have lower : (10 : ℚ) ^ (decade n d - 1) ≤ x.magnitude := by
    rw [exactly]
    exact (decade_bounds numerator denominator).1
  rcases le_or_gt ((10 : ℚ) ^ (decade n d - 1)) (digits * 10 ^ exponent) with inDecade | below
  · have fine : decade n d - places ≤ exponent := by
      by_contra coarse
      have less : (digits : ℚ) * 10 ^ exponent < 10 ^ (decade n d - 1) := by
        calc (digits : ℚ) * 10 ^ exponent < 10 ^ (places : Int) * 10 ^ exponent := by
              gcongr
              exact_mod_cast small
          _ = 10 ^ (places + exponent) := (zpow_add₀ (by norm_num) _ _).symm
          _ ≤ 10 ^ (decade n d - 1) := zpow_le_zpow_right₀ (by norm_num) (by omega)
      linarith
    have same : ((digits * 10 ^ (exponent - (decade n d - places)).toNat : Nat) : ℚ) *
        10 ^ (decade n d - places) = digits * 10 ^ exponent := by
      push_cast
      rw [mul_assoc, ← zpow_natCast, ← zpow_add₀ (by norm_num)]
      congr 2
      omega
    rw [← same] at rounding ⊢
    exact ⟨_, rounding, le_rfl⟩
  · -- The least number of the decade lies between the decimal and the number.
    have same : ((10 ^ (places - 1) : Nat) : ℚ) * 10 ^ (decade n d - places) =
        10 ^ (decade n d - 1) := by
      push_cast
      rw [← zpow_natCast, ← zpow_add₀ (by norm_num)]
      congr 1
      omega
    refine ⟨10 ^ (places - 1), ?_, ?_⟩
    · rw [same]
      exact rounding.toward (Or.inr ⟨below.le, lower⟩)
    · rw [same, abs_of_nonneg (by linarith), abs_of_nonneg (by linarith)]
      linarith

end Grid

/-! ## The search -/

theorem exists_first_of_findSome? {α : Type} {f : Nat → Option α} {count : Nat} {found : α}
    (searched : (List.range count).findSome? f = some found) :
    ∃ i, f i = some found ∧ ∀ j < i, f j = none := by
  induction count with
  | zero => cases searched
  | succ count induction =>
      rw [List.range_succ, List.findSome?_append] at searched
      cases earlier : (List.range count).findSome? f with
      | some _ =>
          rw [earlier] at searched
          exact induction (earlier.trans searched)
      | none =>
          rw [earlier, Option.none_or, List.findSome?_singleton] at searched
          refine ⟨count, searched, fun j less => ?_⟩
          exact List.findSome?_eq_none_iff.mp earlier j (List.mem_range.mpr less)

/-- The search ends on the first grid that has a decimal that reads back. -/
theorem exists_search {x : Double} {n d : Nat} {last : Nat} (within : last < 17)
    (onLast : onGrid? x n d (decade n d - (last + 1)) ≠ none) :
    ∃ (i : Nat) (digits : Nat), search? x n d = some (ofScaled digits (decade n d - (i + 1))) ∧
      onGrid? x n d (decade n d - (i + 1)) = some digits ∧
      ∀ j < i, onGrid? x n d (decade n d - (j + 1)) = none := by
  cases searched : search? x n d with
  | none =>
      have nowhere := List.findSome?_eq_none_iff.mp searched last (List.mem_range.mpr within)
      exact absurd (Option.map_eq_none_iff.mp nowhere) onLast
  | some decimal =>
      obtain ⟨i, atGrid, noneBefore⟩ := exists_first_of_findSome? searched
      obtain ⟨digits, onGrid, rfl⟩ := Option.map_eq_some_iff.mp atGrid
      exact ⟨i, digits, rfl, onGrid, fun j less => Option.map_eq_none_iff.mp (noneBefore j less)⟩

/-! ## The digits that are kept -/

/-- A number up to a power of ten has as many digits as the power has zeros, once its own zeros are
dropped. -/
theorem length_ofScaled_le {digits places : Nat} (nonzero : digits ≠ 0) (somePlace : 0 < places)
    (atMost : digits ≤ 10 ^ places) (exponent : Int) :
    (ofScaled digits exponent).digits.length ≤ places := by
  obtain ⟨zeros, written⟩ := exists_zeros digits exponent
  have lengths := congrArg List.length written
  rw [List.length_append, List.length_replicate] at lengths
  rcases atMost.lt_or_eq with less | power
  · have short := (Nat.length_toDigits_le_iff (by norm_num) somePlace).mpr less
    omega
  · have dvd : 10 ∣ digits := power ▸ dvd_pow_self 10 somePlace.ne'
    have someZero : zeros ≠ 0 := by
      rintro rfl
      have large := Nat.le_of_dvd (Nat.pos_of_ne_zero nonzero) dvd
      have last := Numeric.getLast?_toDigits_of_ten_dvd large dvd
      rw [written, List.replicate_zero, List.append_nil] at last
      exact (isTrimmed_ofScaled nonzero exponent).last last
    have below : digits < 10 ^ (places + 1) := power ▸ Nat.pow_lt_pow_succ (by norm_num)
    have short := (Nat.length_toDigits_le_iff (by norm_num) (Nat.succ_pos places)).mpr below
    omega

/-! ## The decimal of a number -/

section Found

variable {x : Double} {n d : Nat} (numerator : 0 < n) (denominator : 0 < d)
  (exactly : x.magnitude = n / d)

include numerator denominator exactly

theorem ne_zero_of_onGrid {unit : Int} {digits : Nat} (onGrid : onGrid? x n d unit = some digits) :
    digits ≠ 0 := by
  rintro rfl
  have isZero : Double.zero false = x := ofDecimal_of_onGrid onGrid
  have noMagnitude : x.magnitude = 0 := by
    rw [← isZero]
    simp [Double.zero]
  have positive : (0 : ℚ) < n / d := by positivity
  linarith

/-- What is found on a grid of the decade has no more digits than the grid. -/
theorem length_of_onGrid {i digits : Nat}
    (onGrid : onGrid? x n d (decade n d - (i + 1)) = some digits) :
    (ofScaled digits (decade n d - (i + 1))).digits.length ≤ i + 1 := by
  have nonzero := ne_zero_of_onGrid numerator denominator exactly onGrid
  have atMost : digits ≤ below n d (decade n d - (i + 1)) + 1 := by
    have middle := middle_eq_or n d (decade n d - (i + 1))
    rcases (isRounding_of_onGrid onGrid).2 with isMiddle | ⟨-, isBelow | isAbove⟩ <;> omega
  have inDecade : below n d (decade n d - (i + 1)) < 10 ^ (i + 1) := by
    have lower := (grid_bounds denominator exactly (decade n d - (i + 1))).1
    have upper := (decade_bounds numerator denominator).2
    rw [exactly] at lower
    have less : (below n d (decade n d - (i + 1)) : ℚ) * 10 ^ (decade n d - (i + 1)) <
        10 ^ (i + 1) * 10 ^ (decade n d - (i + 1)) := by
      refine lt_of_le_of_lt lower (lt_of_lt_of_eq upper ?_)
      rw [← zpow_natCast, ← zpow_add₀ (by norm_num)]
      congr 1
      push_cast
      ring
    exact_mod_cast lt_of_mul_lt_mul_right less (by positivity)
  exact length_ofScaled_le nonzero (Nat.succ_pos i) (by omega) _

/-- A decimal that reads back is matched on the grid of as many digits. -/
theorem matched_onGrid {other : Decimal} (proper : other.Proper)
    (rounding : x.IsRounding false other.value) {i : Nat} (length : other.digits.length = i + 1) :
    ∃ count : Nat, x.IsRounding false (count * 10 ^ (decade n d - (i + 1))) ∧
      |x.magnitude - count * 10 ^ (decade n d - (i + 1))| ≤ |x.magnitude - other.value| := by
  have small := Numeric.ofDigitChars_lt proper.2
  rw [length] at small
  rw [value_eq] at rounding ⊢
  exact_mod_cast
    exists_isRounding_onGrid denominator exactly numerator (Nat.succ_pos i) small rounding

/-- The first grid that has a decimal that reads back gives the shortest one. -/
theorem isShortest_of_onGrid {i digits : Nat}
    (onGrid : onGrid? x n d (decade n d - (i + 1)) = some digits)
    (noneBefore : ∀ j < i, onGrid? x n d (decade n d - (j + 1)) = none) :
    (ofScaled digits (decade n d - (i + 1))).IsShortest x := by
  have length := length_of_onGrid numerator denominator exactly onGrid
  have atLeast : ∀ other : Decimal, other.Proper → x.IsRounding false other.value →
      i + 1 ≤ other.digits.length := by
    intro other proper rounding
    by_contra fewer
    obtain ⟨j, same⟩ := Nat.exists_eq_succ_of_ne_zero (List.length_pos_of_ne_nil proper.1).ne'
    obtain ⟨count, reads, -⟩ :=
      matched_onGrid numerator denominator exactly proper rounding same
    obtain ⟨found, earlier⟩ := exists_onGrid denominator exactly reads
    rw [noneBefore j (by omega)] at earlier
    cases earlier
  constructor
  · rw [value_ofScaled]
    exact (isRounding_of_onGrid onGrid).1
  · intro other proper rounding
    exact length.trans (atLeast other proper rounding)
  · intro other proper sameLength rounding
    have longEnough := atLeast other proper rounding
    obtain ⟨count, reads, nearer⟩ :=
      matched_onGrid numerator denominator exactly proper rounding (by omega : _ = i + 1)
    rw [value_ofScaled]
    exact (nearest_of_onGrid denominator exactly onGrid reads).trans nearer

/-- The search finds the shortest decimal: seventeen digits tell all doubles apart. -/
theorem exists_isShortest (signed : x.IsSigned false) :
    ∃ decimal, search? x n d = some decimal ∧ decimal.IsShortest x := by
  have fine : 10 ^ 16 * 10 ^ (decade n d - ((16 : Nat) + 1)) ≤ x.magnitude := by
    rw [exactly]
    refine le_trans (le_of_eq ?_) (decade_bounds numerator denominator).1
    rw [← zpow_natCast, ← zpow_add₀ (by norm_num)]
    congr 1
    push_cast
    ring
  have reads := isRounding_middle denominator exactly signed fine
  obtain ⟨found, onLast⟩ := exists_onGrid denominator exactly reads
  obtain ⟨i, digits, searched, onGrid, noneBefore⟩ :=
    exists_search (by norm_num : 16 < 17) (by rw [onLast]; exact Option.some_ne_none found)
  exact ⟨_, searched, isShortest_of_onGrid numerator denominator exactly onGrid noneBefore⟩

end Found

/-- The decimal chosen for a number is its shortest. -/
theorem isShortest_shortest {significand : Nat} {exponent : Int}
    (canonical : Double.Canonical significand exponent) (nonzero : significand ≠ 0) :
    (shortest significand exponent canonical).IsShortest
      (.finite false significand exponent canonical) := by
  have numerator : 0 < significand * 2 ^ exponent.toNat := by positivity
  have denominator : 0 < 2 ^ (-exponent).toNat := by positivity
  have exactly : (Double.finite false significand exponent canonical).magnitude =
      (significand * 2 ^ exponent.toNat : Nat) / (2 ^ (-exponent).toNat : Nat) :=
    (Double.scaled_div_eq two_pos significand exponent).symm
  obtain ⟨decimal, searched, isShortest⟩ := exists_isShortest numerator denominator exactly rfl
  have chosen : shortest significand exponent canonical = decimal := by
    rw [shortest, searched, Option.getD_some]
  rwa [chosen]

/-! ## The text of a number -/

/-- A decimal as the language writes it: up to twenty-one digits before the point and up to five
zeros behind it are written out, and numbers farther away have a power of ten. -/
inductive Written : Decimal → List Char → Prop
  | whole {digits : List Char} {zeros : Nat} (atMost : digits.length + zeros ≤ 21) :
      Written ⟨digits, digits.length + zeros⟩ (digits ++ List.replicate zeros '0')
  | mixed {before after : List Char} (leading : before ≠ []) (trailing : after ≠ [])
      (atMost : before.length ≤ 21) :
      Written ⟨before ++ after, before.length⟩ (before ++ '.' :: after)
  | small {digits : List Char} {zeros : Nat} (few : zeros < 6) :
      Written ⟨digits, -zeros⟩ ('0' :: '.' :: List.replicate zeros '0' ++ digits)
  | scientific {first : Char} {rest : List Char} {point : Int} (far : point ≤ -6 ∨ 21 < point) :
      Written ⟨first :: rest, point⟩
        (first :: (if rest = [] then [] else '.' :: rest) ++
          'e' :: (if point - 1 < 0 then '-' else '+') :: Nat.toDigits 10 (point - 1).natAbs)

theorem numberLayout_power (exponent : Int) :
    numberLayout.power exponent =
      'e' :: (if exponent < 0 then '-' else '+') :: Nat.toDigits 10 exponent.natAbs := by
  rw [Layout.power]
  split <;> rfl

theorem written_unchecked {decimal : Decimal} (proper : decimal.Proper) :
    Written decimal (numberLayout.unchecked decimal) := by
  obtain ⟨digits, point⟩ := decimal
  have nonempty : digits ≠ [] := proper.1
  have noFraction : ¬ numberLayout.wholeFraction = true := nofun
  have least : numberLayout.least = -6 := rfl
  have greatest : numberLayout.greatest = 21 := rfl
  simp only [Layout.unchecked, if_neg noFraction, List.append_nil]
  split
  · rename_i whole
    obtain ⟨zeros, rfl⟩ := Int.le.dest whole.1
    rw [add_sub_cancel_left, Int.toNat_natCast]
    exact .whole (by omega)
  · rename_i notWhole
    split
    · rename_i mixed
      obtain ⟨count, rfl⟩ := Int.eq_ofNat_of_zero_le mixed.1.le
      have length : (digits.take count).length = count := by
        rw [List.length_take]
        omega
      have leading : digits.take count ≠ [] := List.ne_nil_of_length_pos (by omega)
      have trailing : digits.drop count ≠ [] := by
        apply List.ne_nil_of_length_pos
        rw [List.length_drop]
        omega
      have written := Written.mixed leading trailing (by omega)
      rwa [List.take_append_drop, length] at written
    · rename_i notMixed
      split
      · rename_i small
        obtain ⟨zeros, same⟩ := Int.eq_ofNat_of_zero_le (Int.neg_nonneg_of_nonpos small.2)
        obtain rfl : point = -(zeros : Int) := by omega
        rw [neg_neg, Int.toNat_natCast]
        exact .small (by omega)
      · rename_i notSmall
        obtain ⟨first, rest, rfl⟩ := List.exists_cons_of_ne_nil nonempty
        have length : 0 < (first :: rest).length := List.length_pos_of_ne_nil nonempty
        have written : Written ⟨first :: rest, point⟩ _ := .scientific (by omega)
        simpa [numberLayout_power] using written

/-- No count and no place is out of range where a decimal is written. -/
theorem exists_written {decimal : Decimal} (proper : decimal.Proper) :
    ∃ text, numberLayout.magnitude? decimal = some text ∧ decimal.Written text :=
  ⟨_, numberLayout.magnitude?_eq proper.1, written_unchecked proper⟩

end Decimal

/-- From a text that shows a value other than zero in one of the two shapes of printed texts, the
decimal with exactly this value and without zeros at its ends is recovered. It is written in the
layout of the language, with no count and no place out of range. The text of a number other than
zero is a sign, if the number is negative, and the decimal so recovered from what is printed of the
number, which is the shortest that reads back as the number. -/
theorem numberText_shortest :
    (∀ (text : List Char) (q : ℚ), Shows text q → q ≠ 0 →
      (Decimal.recover text).IsTrimmed ∧ (Decimal.recover text).value = q ∧
        ∃ out, numberLayout.magnitude? (Decimal.recover text) = some out ∧
          (Decimal.recover text).Written out) ∧
    ∀ (negative : Bool) (significand : Nat) (exponent : Int)
      (canonical : Double.Canonical significand exponent), significand ≠ 0 →
      ∃ (decimal : Decimal) (out : List Char), decimal.IsTrimmed ∧
        decimal.IsShortest (.finite false significand exponent canonical) ∧
        Shows (printed significand exponent canonical) decimal.value ∧
        Decimal.recover (printed significand exponent canonical) = decimal ∧
        numberLayout.magnitude? decimal = some out ∧ decimal.Written out ∧
        numberText (.finite negative significand exponent canonical) =
          (if negative then ['-'] else []) ++ out := by
  constructor
  · intro text q shown nonzero
    obtain ⟨trimmed, value⟩ := Decimal.isTrimmed_recover shown nonzero
    exact ⟨trimmed, value, Decimal.exists_written trimmed.proper⟩
  · intro negative significand exponent canonical nonzero
    have trimmed := Decimal.isTrimmed_shortest canonical nonzero
    have isShortest := Decimal.isShortest_shortest canonical nonzero
    obtain ⟨out, inRange, written⟩ := Decimal.exists_written trimmed.proper
    refine ⟨_, out, trimmed, isShortest, Decimal.shows_printed canonical nonzero,
      Decimal.recover_printed canonical nonzero, inRange, written, ?_⟩
    rw [Numeric.numberText_finite, Layout.finite, if_neg nonzero, Layout.magnitude, inRange,
      Option.getD_some]

/-- A text with zeros at both ends of its digits, and the least number of all, with a sign. -/
theorem numberText_least :
    Shows "0.0120".toList (12 / 1000) ∧ (Decimal.recover "0.0120".toList).IsTrimmed ∧
      (Decimal.recover "0.0120".toList).value = 12 / 1000 ∧
        ∃ decimal : Decimal, decimal.IsTrimmed ∧
          decimal.IsShortest (.finite false 1 (-1074) (by decide)) ∧
          decimal.Written "5e-324".toList := by
  have whole : Numeric.AreDigits ['0'] := ⟨nofun, by simp⟩
  have fraction : Numeric.AreDigits ['0', '1', '2', '0'] := ⟨nofun, by simp⟩
  have shown : Shows "0.0120".toList (12 / 1000) := by
    have number : Nat.ofDigitChars 10 ['0'] 0 = 0 ∧
        Nat.ofDigitChars 10 ['0', '1', '2', '0'] 0 = 120 := ⟨rfl, rfl⟩
    have positional := Shows.positional whole fraction
    norm_num [number] at positional ⊢
    exact positional
  obtain ⟨trimmed, value, -⟩ := numberText_shortest.1 _ _ shown (by norm_num)
  refine ⟨shown, trimmed, value, ?_⟩
  obtain ⟨decimal, out, isTrimmed, isShortest, -, -, -, written, same⟩ :=
    numberText_shortest.2 true 1 (-1074) (by decide) (by decide)
  have least : numberText (.finite true 1 (-1074) (by decide)) = '-' :: "5e-324".toList := by
    decide +kernel
  rw [least] at same
  obtain rfl : "5e-324".toList = out := (List.cons.inj same).2
  exact ⟨decimal, isTrimmed, isShortest, written⟩

end TreeQuery
