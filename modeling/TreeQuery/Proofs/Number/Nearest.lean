import TreeQuery.Proofs.Number.Rounding

/-!
# The nearest double

Rounding gives the double that is nearest to an exact value, and of two that are equally near the
one with an even significand. To decide about overflow an infinity counts as the power of two that
follows the finite numbers. No two doubles are such a rounding of one value, so the relation says
what the rounding is without saying how it is found.
-/

namespace TreeQuery.Double

/-- The exact value without its sign. An infinity counts as the power of two that follows the finite
numbers. -/
def magnitude : Double → ℚ
  | .nan => 0
  | .infinity _ => 2 ^ (1024 : Int)
  | .finite _ significand exponent _ => significand * 2 ^ exponent

/-- Whether the significand is even, as it is for the power of two that an infinity counts as. -/
def IsEven : Double → Prop
  | .nan => False
  | .infinity _ => True
  | .finite _ significand _ _ => significand % 2 = 0

/-- Whether a number, zeros and infinities included, has the given sign. -/
def IsSigned (negative : Bool) : Double → Prop
  | .nan => False
  | .infinity sign => sign = negative
  | .finite sign _ _ _ => sign = negative

/-- `x` has the given sign, no double is nearer to `q` in magnitude, and where another one is as
near, the significand of `x` is even. -/
structure IsRounding (negative : Bool) (q : ℚ) (x : Double) : Prop where
  signed : x.IsSigned negative
  nearest : ∀ y : Double, y.isNaN = false → |q - x.magnitude| ≤ |q - y.magnitude|
  even : ∀ y : Double, y.isNaN = false → y.magnitude ≠ x.magnitude →
    |q - y.magnitude| = |q - x.magnitude| → x.IsEven

/-! ## Where the doubles are -/

@[simp]
theorem magnitude_finite (negative : Bool) {significand : Nat} {exponent : Int}
    (canonical : Canonical significand exponent) :
    (finite negative significand exponent canonical).magnitude = significand * 2 ^ exponent :=
  rfl

@[simp]
theorem magnitude_infinity (negative : Bool) : (infinity negative).magnitude = 2 ^ (1024 : Int) :=
  rfl

theorem isNaN_of_isSigned {negative : Bool} {x : Double} (signed : x.IsSigned negative) :
    x.isNaN = false := by
  cases x with
  | nan => exact signed.elim
  | infinity _ => rfl
  | finite _ _ _ _ => rfl

/-- Numbers with the last place `place` lie below `2 ^ 53` such places. -/
theorem scaled_lt {significand : Nat} (below : significand < 2 ^ 53) {exponent place : Int}
    (atMost : exponent ≤ place) : (significand : ℚ) * 2 ^ exponent < 2 ^ (53 + place) := by
  have small : (significand : ℚ) < 2 ^ (53 : Int) := by exact_mod_cast below
  calc (significand : ℚ) * 2 ^ exponent
      < 2 ^ (53 : Int) * 2 ^ exponent := by gcongr
    _ = 2 ^ (53 + exponent) := (zpow_add₀ two_ne_zero _ _).symm
    _ ≤ 2 ^ (53 + place) := by
        gcongr
        norm_num

/-- Numbers with the last place `exponent` and a leading bit are not below `2 ^ 52` such places. -/
theorem le_scaled {significand : Nat} (normal : 2 ^ 52 ≤ significand) (exponent : Int) :
    (2 : ℚ) ^ (52 + exponent) ≤ significand * 2 ^ exponent := by
  have large : (2 : ℚ) ^ (52 : Int) ≤ significand := by exact_mod_cast normal
  rw [zpow_add₀ two_ne_zero]
  gcongr

theorem magnitude_finite_lt (negative : Bool) {significand : Nat} {exponent : Int}
    (canonical : Canonical significand exponent) :
    (finite negative significand exponent canonical).magnitude < 2 ^ (1024 : Int) :=
  scaled_lt canonical.1 canonical.2.2.1

theorem magnitude_le (x : Double) : x.magnitude ≤ 2 ^ (1024 : Int) := by
  cases x with
  | nan =>
      simp only [magnitude]
      positivity
  | infinity _ => exact le_rfl
  | finite negative _ _ canonical => exact (magnitude_finite_lt negative canonical).le

/-- A double is a multiple of a power of two, unless it lies below the numbers that have this power
as their last place. -/
theorem multiple_or_below {x : Double} (isNumber : x.isNaN = false) {place : Int}
    (greatest : place ≤ 1024) :
    (∃ count : Nat, x.magnitude = count * 2 ^ place) ∨
      (-1074 < place ∧ x.magnitude < 2 ^ (52 + place)) := by
  have coarse : ∀ (significand : Nat) {exponent : Int}, place ≤ exponent →
      (significand : ℚ) * 2 ^ exponent =
        (significand * 2 ^ (exponent - place).toNat : Nat) * 2 ^ place := by
    intro significand exponent atLeast
    have power : (2 : ℚ) ^ exponent = 2 ^ (exponent - place).toNat * 2 ^ place := by
      rw [← zpow_natCast, ← zpow_add₀ two_ne_zero]
      congr 1
      omega
    rw [power]
    push_cast
    ring
  cases x with
  | nan => cases isNumber
  | infinity _ =>
      refine Or.inl ⟨1 * 2 ^ (1024 - place).toNat, ?_⟩
      rw [← coarse 1 greatest, magnitude_infinity, Nat.cast_one, one_mul]
  | finite _ significand exponent canonical =>
      obtain ⟨below, least, -, -⟩ := canonical
      rcases le_or_gt place exponent with atLeast | fine
      · exact Or.inl ⟨_, coarse significand atLeast⟩
      · have small := scaled_lt below (Int.le_sub_one_of_lt fine)
        rw [show 53 + (place - 1) = 52 + place by ring] at small
        exact Or.inr ⟨lt_of_le_of_lt least fine, small⟩

/-- The number after one with an even significand has the same exponent. -/
theorem canonical_succ {significand : Nat} {exponent : Int}
    (canonical : Canonical significand exponent) (even : significand % 2 = 0) :
    Canonical (significand + 1) exponent := by
  obtain ⟨below, least, greatest, normal⟩ := canonical
  exact ⟨by omega, least, greatest, by omega⟩

/-- A double above a finite one is a whole number of its last places away. -/
theorem exists_above {negative : Bool} {significand : Nat} {exponent : Int}
    {canonical : Canonical significand exponent} {y : Double} (isNumber : y.isNaN = false)
    (less : (finite negative significand exponent canonical).magnitude < y.magnitude) :
    ∃ steps : Nat, y.magnitude = (significand + (steps + 1) : Nat) * 2 ^ exponent := by
  have greatest : exponent ≤ 1024 := canonical.2.2.1.trans (by norm_num)
  rcases multiple_or_below isNumber greatest with ⟨count, value⟩ | ⟨notLeast, below⟩
  · have more : significand < count := by
      rw [value, magnitude_finite] at less
      exact_mod_cast lt_of_mul_lt_mul_right less (by positivity)
    refine ⟨count - significand - 1, ?_⟩
    rw [value]
    congr 2
    omega
  · rcases canonical.2.2.2 with normal | least
    · have large := le_scaled normal exponent
      rw [magnitude_finite] at less
      linarith
    · omega

/-- Neighbouring doubles differ by no less than the `2 ^ 53`th part of the greater one. -/
theorem magnitude_le_gap {x y : Double} (isNumber : x.isNaN = false)
    (otherIsNumber : y.isNaN = false) (less : x.magnitude < y.magnitude) :
    y.magnitude ≤ 2 ^ 53 * (y.magnitude - x.magnitude) := by
  cases x with
  | nan => cases isNumber
  | infinity _ => exact absurd (magnitude_le y) (not_le.mpr less)
  | finite negative significand exponent canonical =>
      obtain ⟨steps, value⟩ := exists_above otherIsNumber less
      have enough : significand + (steps + 1) ≤ 2 ^ 53 * (steps + 1) := by
        have below : significand < 2 ^ 53 := canonical.1
        omega
      have difference :
          y.magnitude - significand * 2 ^ exponent = (steps + 1 : Nat) * 2 ^ exponent := by
        rw [value]
        push_cast
        ring
      rw [magnitude_finite, difference, value, ← mul_assoc]
      gcongr
      exact_mod_cast enough

/-- A finite value has one exponent. -/
theorem exponent_le_of_same {significand significand' : Nat} {exponent exponent' : Int}
    (canonical : Canonical significand exponent) (canonical' : Canonical significand' exponent')
    (same : (significand : ℚ) * 2 ^ exponent = significand' * 2 ^ exponent') :
    exponent' ≤ exponent := by
  by_contra less
  have small := scaled_lt canonical.1 (Int.le_sub_one_of_lt (not_le.mp less))
  rcases canonical'.2.2.2 with normal | least
  · have large := le_scaled normal exponent'
    rw [show 53 + (exponent' - 1) = 52 + exponent' by ring] at small
    linarith
  · have := canonical.2.1
    omega

/-- Doubles of one sign and magnitude are one. -/
theorem eq_of_magnitude_eq {negative : Bool} {x y : Double} (signed : x.IsSigned negative)
    (otherSigned : y.IsSigned negative) (same : x.magnitude = y.magnitude) : x = y := by
  cases x with
  | nan => exact signed.elim
  | infinity sign =>
      cases y with
      | nan => exact otherSigned.elim
      | infinity other => rw [show sign = other from signed.trans otherSigned.symm]
      | finite other _ _ canonical =>
          exact absurd same.symm (magnitude_finite_lt other canonical).ne
  | finite sign significand exponent canonical =>
      cases y with
      | nan => exact otherSigned.elim
      | infinity _ => exact absurd same (magnitude_finite_lt sign canonical).ne
      | finite other significand' exponent' canonical' =>
          obtain rfl : sign = other := signed.trans otherSigned.symm
          obtain rfl : exponent = exponent' :=
            le_antisymm (exponent_le_of_same canonical' canonical same.symm)
              (exponent_le_of_same canonical canonical' same)
          obtain rfl : significand = significand' := by
            exact_mod_cast mul_right_cancel₀ (by positivity) same
          rfl

/-! ## One rounding -/

/-- A point that is nearest to `q` is nearest to all between: another one lies beyond `q`, seen from
it, or on its other side. -/
theorem nearest_toward {q q' a b : ℚ} (between : (b ≤ q' ∧ q' ≤ q) ∨ (q ≤ q' ∧ q' ≤ b))
    (nearest : |q - b| ≤ |q - a|) :
    |q' - b| ≤ |q' - a| ∧ (a ≠ b → |q' - a| = |q' - b| → |q - a| = |q - b|) := by
  grind [abs_cases]

namespace IsRounding

variable {negative : Bool} {q : ℚ} {x y : Double}

theorem isNumber (rounding : x.IsRounding negative q) : x.isNaN = false :=
  isNaN_of_isSigned rounding.signed

/-- A value midway to a double above is rounded down only from the neighbour of that double, and
only if the significand is even. Otherwise the double after the lower one would be nearer. -/
theorem neighbour_of_tie {significand : Nat} {exponent : Int}
    {canonical : Canonical significand exponent}
    (rounding : (finite negative significand exponent canonical).IsRounding negative q)
    (isNumber : y.isNaN = false)
    (less : (finite negative significand exponent canonical).magnitude < y.magnitude)
    (middle : (finite negative significand exponent canonical).magnitude + y.magnitude = 2 * q) :
    significand % 2 = 0 ∧ y.magnitude = (significand + 1 : Nat) * 2 ^ exponent := by
  have tie :
      |q - y.magnitude| = |q - (finite negative significand exponent canonical).magnitude| := by
    rw [abs_of_neg (by linarith), abs_of_pos (by linarith)]
    linarith
  have even : significand % 2 = 0 := rounding.even y isNumber less.ne' tie
  refine ⟨even, ?_⟩
  obtain ⟨steps, value⟩ := exists_above isNumber less
  cases steps with
  | zero => exact value
  | succ steps =>
      have next := canonical_succ canonical even
      have nearer := rounding.nearest (finite negative (significand + 1) exponent next) rfl
      have unit : (0 : ℚ) < 2 ^ exponent := by positivity
      have further : (0 : ℚ) ≤ steps * 2 ^ exponent := by positivity
      rw [magnitude_finite] at middle
      rw [magnitude_finite, magnitude_finite] at nearer
      push_cast at value nearer
      rw [abs_of_pos (by linarith)] at nearer
      rcases le_abs'.mp nearer with above | below
      · linarith
      · linarith

/-- Of two roundings of one value neither is greater. They would lie on either side of the value
as neighbours, both with even significands. -/
theorem magnitude_le (rounding : x.IsRounding negative q) (other : y.IsRounding negative q) :
    y.magnitude ≤ x.magnitude := by
  by_contra notLe
  have less : x.magnitude < y.magnitude := not_le.mp notLe
  have tie : |q - y.magnitude| = |q - x.magnitude| :=
    le_antisymm (other.nearest x rounding.isNumber) (rounding.nearest y other.isNumber)
  have yEven := other.even x rounding.isNumber less.ne tie.symm
  have middle : x.magnitude + y.magnitude = 2 * q := by
    rcases abs_eq_abs.mp tie with same | opposite
    · linarith
    · linarith
  cases x with
  | nan => cases rounding.isNumber
  | infinity _ => exact absurd (Double.magnitude_le y) notLe
  | finite sign significand exponent canonical =>
      obtain rfl : sign = negative := rounding.signed
      obtain ⟨even, value⟩ := rounding.neighbour_of_tie other.isNumber less middle
      have next := canonical_succ canonical even
      have isNext : y = finite sign (significand + 1) exponent next :=
        eq_of_magnitude_eq other.signed rfl value
      subst isNext
      have nextEven : (significand + 1) % 2 = 0 := yEven
      omega

/-- A value has one rounding. -/
theorem unique (rounding : x.IsRounding negative q) (other : y.IsRounding negative q) : x = y :=
  eq_of_magnitude_eq rounding.signed other.signed
    (le_antisymm (other.magnitude_le rounding) (rounding.magnitude_le other))

/-- What lies between a double and a value that rounds to it rounds to it as well. -/
theorem toward {q' : ℚ} (rounding : x.IsRounding negative q)
    (between : (x.magnitude ≤ q' ∧ q' ≤ q) ∨ (q ≤ q' ∧ q' ≤ x.magnitude)) :
    x.IsRounding negative q' where
  signed := rounding.signed
  nearest y isNumber := (nearest_toward between (rounding.nearest y isNumber)).1
  even y isNumber differs tie :=
    rounding.even y isNumber differs
      ((nearest_toward between (rounding.nearest y isNumber)).2 differs tie)

end IsRounding

/-! ## The rounding of a quotient -/

/-- The nearest integer is no more than a half away, and even if it is a half away. -/
theorem abs_sub_nearest (n : Nat) {d : Nat} (positive : 0 < d) :
    |(n / d : ℚ) - nearest n d| ≤ 1 / 2 ∧
      (|(n / d : ℚ) - nearest n d| = 1 / 2 → nearest n d % 2 = 0) := by
  have denominator : (0 : ℚ) < d := by exact_mod_cast positive
  have division : (n / d : ℚ) = (n / d : Nat) + (n % d : Nat) / d := by
    have exactly : (d : ℚ) * (n / d : Nat) + (n % d : Nat) = n := by
      exact_mod_cast Nat.div_add_mod n d
    rw [div_eq_iff denominator.ne', add_mul, div_mul_cancel₀ _ denominator.ne']
    linarith
  have fraction : (0 : ℚ) ≤ (n % d : Nat) / d := by positivity
  have fractionBelow : ((n % d : Nat) / d : ℚ) < 1 := by
    rw [div_lt_one denominator]
    exact_mod_cast Nat.mod_lt n positive
  have less : (2 * (n % d) < d) ↔ ((n % d : Nat) / d : ℚ) < 1 / 2 := by
    rw [div_lt_div_iff₀ denominator two_pos, one_mul, mul_comm]
    exact_mod_cast Iff.rfl
  have half : (2 * (n % d) = d) ↔ ((n % d : Nat) / d : ℚ) = 1 / 2 := by
    rw [div_eq_div_iff denominator.ne' two_ne_zero, one_mul, mul_comm]
    exact_mod_cast Iff.rfl
  rw [division]
  simp only [nearest, less, half]
  generalize ((n % d : Nat) / d : ℚ) = part at *
  split
  · rename_i down
    rw [add_sub_cancel_left, abs_of_nonneg fraction]
    rcases down with below | ⟨atHalf, even⟩
    · exact ⟨below.le, fun same => absurd same below.ne⟩
    · exact ⟨atHalf.le, fun _ => even⟩
  · rename_i up
    obtain ⟨notBelow, notEven⟩ := not_or.mp up
    push_cast
    rw [add_sub_add_left_eq_sub, abs_of_neg (by linarith)]
    refine ⟨by linarith, fun same => ?_⟩
    have odd : ¬ n / d % 2 = 0 := fun even => notEven ⟨by linarith, even⟩
    omega

/-- No natural number is nearer to `q` than `count`, and none is equally near unless `count` is
even. -/
def IsNearest (q : ℚ) (count : Nat) : Prop :=
  ∀ other : Nat, |q - count| ≤ |q - other| ∧
    (other ≠ count → |q - other| = |q - count| → count % 2 = 0)

theorem isNearest_nearest (n : Nat) {d : Nat} (positive : 0 < d) :
    IsNearest (n / d) (nearest n d) := by
  intro other
  obtain ⟨atMost, even⟩ := abs_sub_nearest n positive
  by_cases same : other = nearest n d
  · rw [same]
    exact ⟨le_rfl, fun differs => absurd rfl differs⟩
  · have apart : (1 : ℚ) ≤ |(other : ℚ) - nearest n d| := by
      have integers : (1 : Int) ≤ |(other : Int) - nearest n d| :=
        Int.one_le_abs (sub_ne_zero.mpr (by exact_mod_cast same))
      exact_mod_cast integers
    have triangle := abs_sub_le (other : ℚ) (n / d) (nearest n d)
    rw [abs_sub_comm (other : ℚ) (n / d)] at triangle
    exact ⟨by linarith, fun _ tie => even (by linarith)⟩

namespace IsNearest

variable {q : ℚ} {count other : Nat}

theorem le_of_le (isNearest : IsNearest q count) (above : q ≤ other) : count ≤ other := by
  by_contra notLe
  have less : (other : ℚ) < count := by exact_mod_cast not_le.mp notLe
  have nearer := (isNearest other).1
  rw [abs_of_neg (by linarith), abs_of_nonpos (by linarith)] at nearer
  linarith

theorem ge_of_ge (isNearest : IsNearest q count) (below : (other : ℚ) ≤ q) : other ≤ count := by
  by_contra notLe
  have less : (count : ℚ) < other := by exact_mod_cast not_le.mp notLe
  have nearer := (isNearest other).1
  rw [abs_of_pos (by linarith), abs_of_nonneg (by linarith)] at nearer
  linarith

/-- The nearest multiple of a last place is the nearest double: what is no multiple of it lies below
`2 ^ 52` of it, and the value does not. -/
theorem nearest_double {place : Int} (isNearest : IsNearest q count) (greatest : place ≤ 971)
    (normal : 2 ^ 52 ≤ q ∨ place = -1074) {y : Double} (isNumber : y.isNaN = false) :
    |q * 2 ^ place - count * 2 ^ place| ≤ |q * 2 ^ place - y.magnitude| ∧
      (y.magnitude ≠ count * 2 ^ place →
        |q * 2 ^ place - y.magnitude| = |q * 2 ^ place - count * 2 ^ place| → count % 2 = 0) := by
  have unit : (0 : ℚ) < 2 ^ place := by positivity
  have distance : ∀ other : Nat, |q * 2 ^ place - other * 2 ^ place| = |q - other| * 2 ^ place := by
    intro other
    rw [← sub_mul, abs_mul, abs_of_pos unit]
  rcases multiple_or_below isNumber (greatest.trans (by norm_num)) with
    ⟨other, multiple⟩ | ⟨notLeast, below⟩
  · obtain ⟨nearer, even⟩ := isNearest other
    rw [multiple, distance, distance]
    refine ⟨by gcongr, fun differs tie => even ?_ (mul_right_cancel₀ unit.ne' tie)⟩
    rintro rfl
    exact differs rfl
  · have leading : 2 ^ 52 ≤ q := normal.resolve_right (by omega)
    have nearer := (isNearest (2 ^ 52)).1
    have farther : |q - (2 ^ 52 : Nat)| * 2 ^ place < |q * 2 ^ place - y.magnitude| := by
      have above : (2 : ℚ) ^ 52 * 2 ^ place ≤ q * 2 ^ place := by gcongr
      have power : (2 : ℚ) ^ (52 + place) = 2 ^ 52 * 2 ^ place := by
        rw [zpow_add₀ two_ne_zero]
        norm_cast
      rw [power] at below
      push_cast
      rw [abs_of_nonneg (by linarith), abs_of_pos (by linarith), sub_mul]
      linarith
    have strictly : |q - count| * 2 ^ place < |q * 2 ^ place - y.magnitude| :=
      lt_of_le_of_lt (by gcongr) farther
    rw [distance]
    exact ⟨strictly.le, fun _ tie => absurd tie strictly.ne'⟩

end IsNearest

/-- A quotient counted in units of a power. -/
theorem div_eq_div_mul_zpow {base : Nat} (nonzero : base ≠ 0) (n : Nat) {d : Nat} (positive : 0 < d)
    (place : Int) :
    (n / d : ℚ) =
      (n * base ^ (-place).toNat : Nat) / (d * base ^ place.toNat : Nat) * (base : ℚ) ^ place := by
  have baseNonzero : (base : ℚ) ≠ 0 := by exact_mod_cast nonzero
  have denominator : (d : ℚ) ≠ 0 := by exact_mod_cast positive.ne'
  push_cast
  rw [← zpow_mul_pow_toNat_neg baseNonzero place]
  field_simp

section Rounded

variable (negative : Bool) {significand : Nat} {place : Int}

/-- What a rounded significand becomes: a carry into a new bit moves the last place. -/
def carried (negative : Bool) (significand : Nat) (place : Int) : Double :=
  if significand = 2 ^ 53 then
    pack negative (2 ^ 52) (place + 1)
  else
    pack negative significand place

/-- The carry changes neither the sign nor the magnitude, and does not lose that the significand is
even. -/
theorem carried_spec (atMost : significand ≤ 2 ^ 53) (least : -1074 ≤ place)
    (greatest : place ≤ 971) (normal : 2 ^ 52 ≤ significand ∨ place = -1074) :
    (carried negative significand place).IsSigned negative ∧
      (carried negative significand place).magnitude = significand * 2 ^ place ∧
        (significand % 2 = 0 → (carried negative significand place).IsEven) := by
  rw [carried]
  split
  · rename_i carry
    have power : (significand : ℚ) * 2 ^ place = 2 ^ (53 + place) := by
      rw [carry, zpow_add₀ two_ne_zero]
      norm_cast
    rw [power, pack]
    split
    · rename_i canonical
      refine ⟨rfl, ?_, fun _ => rfl⟩
      have leading : ((2 ^ 52 : Nat) : ℚ) = 2 ^ (52 : Int) := by norm_cast
      rw [magnitude_finite, leading, ← zpow_add₀ two_ne_zero]
      congr 1
      ring
    · rename_i overflow
      have last : place = 971 := by
        by_contra notLast
        exact overflow ⟨by norm_num, by omega, by omega, Or.inl le_rfl⟩
      refine ⟨rfl, ?_, fun _ => trivial⟩
      rw [last]
      rfl
  · rename_i noCarry
    have canonical : Canonical significand place :=
      ⟨lt_of_le_of_ne atMost noCarry, least, greatest, normal⟩
    rw [pack, dif_pos canonical]
    exact ⟨rfl, rfl, id⟩

end Rounded

/-- The last place of a quotient below the infinities, and where the quotient lies in its terms. -/
theorem lastPlace_bounds {n d : Nat} (numerator : 0 < n) (denominator : 0 < d)
    (small : (n / d : ℚ) < 2 ^ (1024 : Int)) :
    -1074 ≤ lastPlace n d ∧ lastPlace n d ≤ 971 ∧ (n / d : ℚ) < 2 ^ (53 + lastPlace n d) ∧
      ((2 : ℚ) ^ (52 + lastPlace n d) ≤ n / d ∨ lastPlace n d = -1074) := by
  have positive : (0 : ℚ) < n / d := by positivity
  have ltPower : ∀ k : Int, (n / d : ℚ) < 2 ^ k ↔ Int.log 2 (n / d : ℚ) < k := by
    intro k
    exact_mod_cast Int.lt_zpow_iff_log_lt one_lt_two positive
  have powerLe : ∀ k : Int, (2 : ℚ) ^ k ≤ n / d ↔ k ≤ Int.log 2 (n / d : ℚ) := by
    intro k
    exact_mod_cast Int.zpow_le_iff_le_log one_lt_two positive
  rw [ltPower] at small
  rw [ltPower, powerLe, lastPlace, binaryOrder_eq_log numerator denominator]
  omega

/-- Quotients from `2 ^ 1024` on are nearest to an infinity. -/
theorem isRounding_infinity (negative : Bool) {q : ℚ} (large : 2 ^ (1024 : Int) ≤ q) :
    (infinity negative).IsRounding negative q where
  signed := rfl
  nearest y _ := by
    have atMost := magnitude_le y
    rw [magnitude_infinity, abs_of_nonneg (by linarith), abs_of_nonneg (by linarith)]
    linarith
  even _ _ _ _ := trivial

theorem isRounding_carried (negative : Bool) {n d : Nat} (numerator : 0 < n) (denominator : 0 < d)
    (small : (n / d : ℚ) < 2 ^ (1024 : Int)) :
    (carried negative (nearest (n * 2 ^ (-lastPlace n d).toNat) (d * 2 ^ (lastPlace n d).toNat))
      (lastPlace n d)).IsRounding negative (n / d) := by
  obtain ⟨least, greatest, upper, lower⟩ := lastPlace_bounds numerator denominator small
  generalize lastPlace n d = place at *
  have unit : (0 : ℚ) < 2 ^ place := by positivity
  have scaled : 0 < d * 2 ^ place.toNat := by positivity
  have isNearest := isNearest_nearest (n * 2 ^ (-place).toNat) scaled
  rw [div_eq_div_mul_zpow two_ne_zero n denominator place, Nat.cast_ofNat] at *
  generalize nearest (n * 2 ^ (-place).toNat) (d * 2 ^ place.toNat) = significand at *
  generalize ((n * 2 ^ (-place).toNat : Nat) / (d * 2 ^ place.toNat : Nat) : ℚ) = q at *
  rw [zpow_add₀ two_ne_zero, mul_lt_mul_iff_left₀ unit] at upper
  rw [zpow_add₀ two_ne_zero, mul_le_mul_iff_left₀ unit] at lower
  have atMost : significand ≤ 2 ^ 53 := isNearest.le_of_le (by exact_mod_cast upper.le)
  have normal : 2 ^ 52 ≤ significand ∨ place = -1074 :=
    lower.imp_left fun leading => isNearest.ge_of_ge (by exact_mod_cast leading)
  obtain ⟨signed, value, even⟩ := carried_spec negative atMost least greatest normal
  have compared {y : Double} (isNumber : y.isNaN = false) :=
    isNearest.nearest_double greatest (by exact_mod_cast lower) isNumber
  rw [← value] at compared
  exact ⟨signed, fun y isNumber => (compared isNumber).1,
    fun y isNumber differs tie => even ((compared isNumber).2 differs tie)⟩

/-- A quotient is rounded to the nearest double. -/
theorem isRounding_ofRatio (negative : Bool) (n : Nat) {d : Nat} (denominator : 0 < d) :
    (ofRatio negative n d).IsRounding negative (n / d) := by
  have dPositive : (0 : ℚ) < d := by exact_mod_cast denominator
  by_cases noValue : n = 0
  · rw [ofRatio, if_pos noValue, noValue]
    refine ⟨rfl, fun y _ => by simp [zero], fun y _ differs tie => ?_⟩
    simp [zero] at differs tie
    exact absurd tie differs
  · rcases le_or_gt (2 ^ (1024 : Int)) (n / d : ℚ) with large | small
    · have overflow : 2 ^ 1024 * d ≤ n := by
        rw [le_div_iff₀ dPositive] at large
        exact_mod_cast large
      rw [ofRatio_eq_infinity negative denominator overflow]
      exact isRounding_infinity negative large
    · rw [ofRatio, if_neg noValue]
      exact isRounding_carried negative (Nat.pos_of_ne_zero noValue) denominator small

/-- Reading a decimal gives the rounding of its exact value. -/
theorem isRounding_ofDecimal (negative : Bool) (digits : Nat) (exponent : Int) :
    (ofDecimal negative digits exponent).IsRounding negative (digits * 10 ^ exponent) := by
  have value : ((digits * 10 ^ exponent.toNat : Nat) : ℚ) / (10 ^ (-exponent).toNat : Nat) =
      digits * 10 ^ exponent := scaled_div_eq (by norm_num) digits exponent
  rw [ofDecimal_eq_ofRatio, ← value]
  exact isRounding_ofRatio negative _ (by positivity)

/-- A decimal reads as the one rounding of its exact value. -/
theorem ofDecimal_eq_iff {negative : Bool} {digits : Nat} {exponent : Int} {x : Double} :
    ofDecimal negative digits exponent = x ↔ x.IsRounding negative (digits * 10 ^ exponent) := by
  have rounding := isRounding_ofDecimal negative digits exponent
  constructor
  · rintro rfl
    exact rounding
  · exact rounding.unique

end TreeQuery.Double
