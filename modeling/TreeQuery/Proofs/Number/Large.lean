import TreeQuery.Proofs.Number.Exact

/-!
# Large integers

From `2 ^ 53` on a double has no place for the ones. A digit that is added to such a number times
its base is lost, so only the digits up to that point decide the result. This changes the rounding
exactly where those digits lie midway between two doubles, the tie goes down, and a digit other than
zero follows.
-/

namespace TreeQuery.Double

/-! ## Small summands -/

/-- A value just above a number rounds to it. -/
theorem isRounding_of_near (negative : Bool) {significand : Nat} {exponent : Int}
    (canonical : Canonical significand exponent) {q : ℚ}
    (atLeast : (significand : ℚ) * 2 ^ exponent ≤ q)
    (near : 2 * (q - significand * 2 ^ exponent) < 2 ^ exponent) :
    (finite negative significand exponent canonical).IsRounding negative q := by
  have farther : ∀ y : Double, y.isNaN = false →
      y.magnitude ≠ (finite negative significand exponent canonical).magnitude →
        |q - (finite negative significand exponent canonical).magnitude| < |q - y.magnitude| := by
    intro y isNumber differs
    rw [magnitude_finite, abs_of_nonneg (sub_nonneg.mpr atLeast)]
    rcases differs.lt_or_gt with below | above
    · rw [magnitude_finite] at below
      rw [abs_of_pos (by linarith)]
      linarith
    · obtain ⟨steps, value⟩ := exists_above isNumber above
      have further : (0 : ℚ) ≤ steps * 2 ^ exponent := by positivity
      have distance : y.magnitude =
          significand * 2 ^ exponent + steps * 2 ^ exponent + 2 ^ exponent := by
        rw [value]
        push_cast
        ring
      rw [abs_of_neg (by linarith)]
      linarith
  refine ⟨rfl, fun y isNumber => ?_, fun y isNumber differs tie => ?_⟩
  · by_cases same : y.magnitude = (finite negative significand exponent canonical).magnitude
    · rw [same]
    · exact (farther y isNumber same).le
  · exact absurd tie (farther y isNumber differs).ne'

/-- Adding less than half of the last place changes nothing. -/
theorem add_eq_self {significand : Nat} {exponent : Int}
    (canonical : Canonical significand exponent) (nonzero : significand ≠ 0) {y : Double} {r : ℚ}
    (holds : y.Holds r) (nonnegative : 0 ≤ r) (small : 2 * r < 2 ^ exponent) :
    (finite false significand exponent canonical).add y =
      finite false significand exponent canonical := by
  have leading : (0 : ℚ) < significand * 2 ^ exponent := by positivity
  have number : (finite false significand exponent canonical).Holds (significand * 2 ^ exponent) :=
    ⟨rfl, rfl⟩
  have positive : (0 : ℚ) < significand * 2 ^ exponent + r := by linarith
  have added := isRounding_add number holds positive.ne'
  rw [abs_of_pos positive, decide_eq_false positive.not_gt] at added
  exact added.unique (isRounding_of_near false canonical (by linarith) (by linarith))

theorem infinity_add {y : Double} {r : ℚ} (holds : y.Holds r) (negative : Bool) :
    (infinity negative).add y = infinity negative := by
  obtain ⟨_, _, _, _, rfl, -⟩ := holds.exists_eq
  rfl

theorem infinity_mul {y : Double} {r : ℚ} (holds : y.Holds r) (nonzero : r ≠ 0)
    (positive : y.IsSigned false) : (infinity false).mul y = infinity false := by
  obtain ⟨negative, significand, exponent, canonical, rfl, rfl⟩ := holds.exists_eq
  obtain rfl : negative = false := positive
  have significant : significand ≠ 0 := by
    rintro rfl
    simp [withSign] at nonzero
  simp [mul, significant]

theorem lastPlace_of_bounds {n : Nat} (order : Nat) (normal : 52 ≤ order) (lower : 2 ^ order ≤ n)
    (upper : n < 2 ^ (order + 1)) : lastPlace n 1 = order - 52 := by
  have positive : 0 < n := lt_of_lt_of_le (by positivity) lower
  have log : Int.log 2 ((n : ℚ) / (1 : Nat)) = order := by
    rw [Nat.cast_one, div_one]
    apply log_eq_of_bounds
    · exact_mod_cast lower
    · exact_mod_cast upper
  rw [lastPlace, binaryOrder_eq_log positive one_pos, log]
  omega

/-- Zeros behind an integer do not change how its leading bits round. -/
theorem ofNat_eq_carried {n places : Nat} (lower : 2 ^ (52 + places) ≤ n)
    (upper : n < 2 ^ (52 + places + 1)) (zeros : Nat) :
    ofNat (n * 2 ^ zeros) = carried false (nearest n (2 ^ places)) (places + zeros) := by
  have lastPlace_eq : lastPlace (n * 2 ^ zeros) 1 = places + zeros := by
    rw [lastPlace_of_bounds (52 + places + zeros) (by omega)]
    · push_cast
      ring
    · rw [pow_add]
      gcongr
    · rw [show 52 + places + zeros + 1 = 52 + places + 1 + zeros by ring,
        pow_add 2 (52 + places + 1)]
      gcongr
  have noFraction : (-((places : Int) + zeros)).toNat = 0 := by omega
  have scale : ((places : Int) + zeros).toNat = places + zeros := by omega
  have bits : nearest (n * 2 ^ zeros) (2 ^ (places + zeros)) = nearest n (2 ^ places) := by
    rw [mul_comm, pow_add, mul_comm (2 ^ places), nearest_mul_left (by positivity)]
  have positive : 0 < n := lt_of_lt_of_le (by positivity) lower
  have notZero : n * 2 ^ zeros ≠ 0 := by positivity
  simp only [ofNat, ofRatio, if_neg notZero, lastPlace_eq, noFraction, scale, pow_zero, mul_one,
    one_mul, bits, carried]

/-- An integer with more than fifty-three bits has the significand that its leading bits round to,
and any number of zeros behind it changes the exponent alone. -/
theorem exists_significand {n : Nat} (large : 2 ^ 53 ≤ n) :
    ∃ (significand : Nat) (exponent : Int), 2 ^ 52 ≤ significand ∧ significand < 2 ^ 53 ∧
      1 ≤ exponent ∧
        ∀ zeros : Nat, ofNat (n * 2 ^ zeros) = pack false significand (exponent + zeros) := by
  have nonzero : n ≠ 0 := by omega
  have manyBits : 53 ≤ n.log2 := (Nat.le_log2 nonzero).mpr large
  obtain ⟨places, order⟩ : ∃ places, n.log2 = 52 + places :=
    Nat.exists_eq_add_of_le (by omega)
  have lower : 2 ^ (52 + places) ≤ n := order ▸ Nat.log2_self_le nonzero
  have upper : n < 2 ^ (52 + places + 1) := order ▸ Nat.lt_log2_self
  have rounded := ofNat_eq_carried lower upper
  have isNearest := isNearest_nearest n (d := 2 ^ places) (by positivity)
  have unit : (0 : ℚ) < (2 ^ places : Nat) := by positivity
  have atLeast : 2 ^ 52 ≤ nearest n (2 ^ places) := by
    apply isNearest.ge_of_ge
    rw [le_div_iff₀ unit]
    exact_mod_cast (pow_add 2 52 places).symm.trans_le lower
  have atMost : nearest n (2 ^ places) ≤ 2 ^ 53 := by
    apply isNearest.le_of_le
    rw [div_le_iff₀ unit]
    have power : 2 ^ (52 + places + 1) = 2 ^ 53 * 2 ^ places := by ring
    exact_mod_cast upper.le.trans_eq power
  by_cases carry : nearest n (2 ^ places) = 2 ^ 53
  · refine ⟨2 ^ 52, places + 1, le_rfl, by norm_num, by omega, fun zeros => ?_⟩
    rw [rounded, carried, if_pos carry, add_right_comm]
  · refine ⟨nearest n (2 ^ places), places, atLeast, by omega, by omega, fun zeros => ?_⟩
    rw [rounded, carried, if_neg carry]

/-! ## Adding a digit -/

section Step

variable {n digit width : Nat} (narrow : width ≤ 4) (below : digit < 2 ^ width)

include narrow

/-- A base or a digit is small enough to be held exactly. -/
theorem holds_of_narrow (atMost : digit ≤ 2 ^ width) : (ofNat digit).Holds digit := by
  apply holds_ofNat
  calc digit ≤ 2 ^ width := atMost
    _ < 2 ^ 53 := Nat.pow_lt_pow_right one_lt_two (by omega)

/-- A finite number times the base, before any digit is added. -/
theorem isRounding_mul_base {x : Double} (isFinite : x.isFinite = true)
    (positive : x.IsSigned false) :
    (x.mul (ofNat (2 ^ width))).IsRounding false (x.magnitude * 2 ^ (width : Int)) := by
  have base := holds_of_narrow narrow le_rfl
  have size : (ofNat (2 ^ width)).magnitude = 2 ^ (width : Int) := by
    rw [base.magnitude_eq, abs_of_nonneg (Nat.cast_nonneg _)]
    push_cast
    rfl
  have rounding := isRounding_mul isFinite positive base.isFinite (isRounding_ofNat _).signed
  rwa [size] at rounding

theorem mul_base_of_canonical {significand : Nat} {exponent : Int}
    (canonical : Canonical significand exponent)
    (canonical' : Canonical significand (exponent + width)) :
    (finite false significand exponent canonical).mul (ofNat (2 ^ width)) =
      finite false significand (exponent + width) canonical' := by
  have power : (significand : ℚ) * 2 ^ exponent * 2 ^ (width : Int) =
      significand * 2 ^ (exponent + width) := by
    rw [mul_assoc, ← zpow_add₀ two_ne_zero]
  have rounding := isRounding_mul_base narrow (x := finite false significand exponent canonical)
    rfl rfl
  rw [magnitude_finite, power] at rounding
  exact rounding.unique
    (isRounding_magnitude (x := finite false significand (exponent + width) canonical') rfl)

theorem mul_base_of_overflow {significand : Nat} {exponent : Int} (atLeast : 2 ^ 52 ≤ significand)
    (overflows : 971 < exponent + width) :
    (pack false significand exponent).mul (ofNat (2 ^ width)) = infinity false := by
  have base := holds_of_narrow narrow le_rfl
  unfold pack
  split
  · rename_i canonical
    have rounding := isRounding_mul_base narrow (x := finite false significand exponent canonical)
      rfl rfl
    apply rounding.unique
    apply isRounding_infinity
    have power : (2 : ℚ) ^ (1024 : Int) ≤ 2 ^ (52 + (exponent + width)) :=
      zpow_le_zpow_right₀ one_le_two (by omega)
    have scaled := le_scaled atLeast (exponent + width)
    rw [magnitude_finite, mul_assoc, ← zpow_add₀ two_ne_zero]
    exact power.trans scaled
  · exact infinity_mul base (by positivity) (isRounding_ofNat _).signed

include below

/-- Below `2 ^ 53` a digit is added to the exact product. -/
theorem step_of_small (small : n < 2 ^ 53) :
    ((ofNat n).mul (ofNat (2 ^ width))).add (ofNat digit) = ofNat (n * 2 ^ width + digit) := by
  have number := holds_ofNat small
  have rounding := isRounding_mul_base narrow number.isFinite (isRounding_ofNat n).signed
  rw [number.magnitude_eq, abs_of_nonneg (Nat.cast_nonneg n)] at rounding
  have product := rounding.holds _ _ small (by omega) (by omega) rfl
  have sum : ((n * 2 ^ width + digit : Nat) : ℚ) =
      withSign false (n * 2 ^ (width : Int)) + digit := by
    push_cast
    rfl
  have target := isRounding_ofNat (n * 2 ^ width + digit)
  by_cases nothing : n * 2 ^ width + digit = 0
  · obtain ⟨rfl, rfl⟩ : n = 0 ∧ digit = 0 := by simpa using nothing
    have zeroProduct : (ofNat 0).mul (ofNat (2 ^ width)) = ofNat 0 :=
      rounding.unique (by simpa using isRounding_ofNat 0)
    rw [zeroProduct, zero_mul]
    rfl
  · have nonnegative : (0 : ℚ) ≤ (n * 2 ^ width + digit : Nat) := Nat.cast_nonneg _
    have nonzero : ((n * 2 ^ width + digit : Nat) : ℚ) ≠ 0 := Nat.cast_ne_zero.mpr nothing
    rw [sum] at target nonnegative nonzero
    have added := isRounding_add product (holds_of_narrow narrow below.le) nonzero
    rw [abs_of_nonneg nonnegative, decide_eq_false (not_lt.mpr nonnegative)] at added
    exact added.unique target

/-- From `2 ^ 53` on a digit is lost: it is less than half of the last place of the product. -/
theorem step_of_large (large : 2 ^ 53 ≤ n) :
    ((ofNat n).mul (ofNat (2 ^ width))).add (ofNat digit) = ofNat (n * 2 ^ width) := by
  obtain ⟨significand, exponent, atLeast, fits, beyond, packed⟩ := exists_significand large
  have number := packed 0
  rw [pow_zero, mul_one, Nat.cast_zero, add_zero] at number
  rw [number, packed width]
  by_cases overflows : 971 < exponent + width
  · have tooLarge : ¬ Canonical significand (exponent + width) := by
      rintro ⟨-, -, greatest, -⟩
      omega
    rw [mul_base_of_overflow narrow atLeast overflows, pack, dif_neg tooLarge]
    exact infinity_add (holds_of_narrow narrow below.le) false
  · have canonical : Canonical significand exponent :=
      ⟨fits, by omega, by omega, Or.inl atLeast⟩
    have canonical' : Canonical significand (exponent + width) :=
      ⟨fits, by omega, by omega, Or.inl atLeast⟩
    rw [pack, dif_pos canonical, pack, dif_pos canonical',
      mul_base_of_canonical narrow canonical canonical']
    apply add_eq_self canonical' (by omega) (holds_of_narrow narrow below.le) (Nat.cast_nonneg _)
    have half : (2 : ℚ) * 2 ^ (width : Int) ≤ 2 ^ (exponent + width) := by
      rw [← zpow_one_add₀ two_ne_zero]
      exact zpow_le_zpow_right₀ one_le_two (by omega)
    have digitBelow : (digit : ℚ) < 2 ^ (width : Int) := by exact_mod_cast below
    linarith

end Step

/-! ## Where a lost digit matters -/

/-- The integer lies midway between two doubles, the lower of which has an even significand: its
first fifty-four bits end in `01`, and all others are zeros. -/
def IsMidway (n : Nat) : Prop :=
  ∃ i j, n = (4 * i + 1) * 2 ^ j ∧ 2 ^ 53 ≤ 4 * i + 1 ∧ 4 * i + 1 < 2 ^ 54

namespace IsRounding

variable {x y : Double} {negative : Bool} {p q : ℚ}

/-- Values that round apart have the middle of their roundings between them. -/
theorem middle_between (left : x.IsRounding negative p) (right : y.IsRounding negative q)
    (less : p < q) (differs : x ≠ y) :
    x.magnitude < y.magnitude ∧ 2 * p ≤ x.magnitude + y.magnitude ∧
      x.magnitude + y.magnitude ≤ 2 * q := by
  have nearLeft := left.nearest y right.isNumber
  have nearRight := right.nearest x left.isNumber
  have apart : x.magnitude ≠ y.magnitude := fun same =>
    differs (eq_of_magnitude_eq left.signed right.signed same)
  grind [abs_cases]

/-- A rounding does not pass a double. -/
theorem magnitude_ge (rounding : x.IsRounding negative q) (isNumber : y.isNaN = false)
    (atMost : y.magnitude ≤ q) : y.magnitude ≤ x.magnitude := by
  have nearer := rounding.nearest y isNumber
  grind [abs_cases]

end IsRounding

section Tie

variable {n shift rest : Nat}

theorem lt_pow_of_cast_lt {k : Nat} (less : (n : ℚ) < 2 ^ (k : Int)) : n < 2 ^ k := by
  exact_mod_cast less

theorem places_lt_of_lt_pow {places k : Nat} (large : 2 ^ places ≤ n)
    (small : n * 2 ^ shift < 2 ^ k) : places + shift < k := by
  apply (Nat.pow_lt_pow_iff_right one_lt_two).mp
  rw [pow_add]
  exact (Nat.mul_le_mul_right _ large).trans_lt small

theorem pow_le_shifted (shift : Nat) (large : 2 ^ 53 ≤ n) :
    (2 : ℚ) ^ (53 + (shift : Int)) ≤ (n * 2 ^ shift : Nat) := by
  have power : 2 ^ (53 + shift) ≤ n * 2 ^ shift := by
    rw [pow_add]
    gcongr
  exact_mod_cast power

theorem IsRounding.shift_lt {x : Double} {q : ℚ} (rounding : x.IsRounding false q)
    (large : (2 : ℚ) ^ (53 + (shift : Int)) ≤ q) (notInfinite : x.magnitude < 2 ^ (1024 : Int)) :
    shift < 971 := by
  by_contra many
  have infinite : (2 : ℚ) ^ (1024 : Int) ≤ q :=
    (zpow_le_zpow_right₀ one_le_two (by omega)).trans large
  rw [rounding.unique (isRounding_infinity false infinite), magnitude_infinity] at notInfinite
  exact lt_irrefl _ notInfinite

/-- From `2 ^ 53` times a power of two on, a rounding is a multiple of twice that power. -/
theorem IsRounding.exists_multiple {x : Double} {q : ℚ} (rounding : x.IsRounding false q)
    (large : (2 : ℚ) ^ (53 + (shift : Int)) ≤ q) (few : shift < 971) :
    (2 : ℚ) ^ (53 + (shift : Int)) ≤ x.magnitude ∧
      ∃ count : Nat, x.magnitude = count * (2 * 2 ^ shift) := by
  have power : ((2 ^ 52 : Nat) : ℚ) * 2 ^ ((shift : Int) + 1) = 2 ^ (53 + (shift : Int)) := by
    rw [show (53 + (shift : Int)) = 52 + ((shift : Int) + 1) by ring, zpow_add₀ two_ne_zero 52]
    norm_cast
  obtain ⟨least, -, isSigned, value⟩ := exists_magnitude_eq false (2 ^ 52) (shift + 1)
    (by norm_num) (by omega) (by omega)
  rw [power] at value
  have atLeast := rounding.magnitude_ge (isNaN_of_isSigned isSigned) (value.trans_le large)
  rw [value] at atLeast
  refine ⟨atLeast, ?_⟩
  rcases multiple_or_below rounding.isNumber (by omega : (shift : Int) + 1 ≤ 1024) with
    ⟨count, multiple⟩ | ⟨-, below⟩
  · refine ⟨count, ?_⟩
    rw [multiple, zpow_add_one₀ two_ne_zero, zpow_natCast]
    ring
  · rw [show 52 + ((shift : Int) + 1) = 53 + shift by ring] at below
    linarith

/-- Between a multiple and the next one there is no other. -/
theorem count_eq_of_between {count : Nat} (below : rest < 2 ^ shift)
    (lower : ((n * 2 ^ shift : Nat) : ℚ) ≤ (count * 2 ^ shift : Nat))
    (upper : ((count * 2 ^ shift : Nat) : ℚ) ≤ (n * 2 ^ shift + rest : Nat)) : count = n := by
  have unit : 0 < 2 ^ shift := by positivity
  have notLess : n ≤ count := Nat.le_of_mul_le_mul_right (by exact_mod_cast lower) unit
  have notMore : count < n + 1 := by
    apply Nat.lt_of_mul_lt_mul_right (a := 2 ^ shift)
    have atMost : count * 2 ^ shift ≤ n * 2 ^ shift + rest := by exact_mod_cast upper
    rw [add_one_mul]
    omega
  omega

/-- The middle between neighbouring doubles in the bits of an integer. -/
theorem isMidway_of_middle {significand : Nat} {exponent : Int} (normal : 2 ^ 52 ≤ significand)
    (fits : significand < 2 ^ 53) (even : significand % 2 = 0) (far : shift < exponent)
    (middle : (significand : ℚ) * 2 ^ exponent + (significand + 1 : Nat) * 2 ^ exponent =
      2 * (n * 2 ^ shift : Nat)) : IsMidway n := by
  obtain ⟨j, rfl⟩ : ∃ j : Nat, exponent = shift + 1 + j := ⟨(exponent - shift - 1).toNat, by omega⟩
  obtain ⟨i, rfl⟩ : ∃ i, significand = 2 * i := ⟨significand / 2, by omega⟩
  refine ⟨i, j, ?_, by omega, by omega⟩
  have power : (2 : ℚ) ^ ((shift : Int) + 1 + j) = 2 * 2 ^ shift * 2 ^ j := by
    rw [zpow_add₀ two_ne_zero, zpow_add_one₀ two_ne_zero]
    norm_cast
    ring
  rw [power] at middle
  have unit : (0 : ℚ) < 2 ^ shift := by positivity
  have bits : (n : ℚ) = ((4 * i + 1) * 2 ^ j : Nat) := by
    apply mul_right_cancel₀ unit.ne'
    push_cast at middle ⊢
    linarith
  exact_mod_cast bits

/-- Where the digits behind a large integer change its rounding, the integer lies midway between two
doubles. -/
theorem isMidway_of_ne (large : 2 ^ 53 ≤ n) (below : rest < 2 ^ shift)
    (differs : ofNat (n * 2 ^ shift) ≠ ofNat (n * 2 ^ shift + rest)) :
    IsMidway n ∧ n * 2 ^ shift + rest < 2 ^ 1024 := by
  have left := isRounding_ofNat (n * 2 ^ shift)
  have right := isRounding_ofNat (n * 2 ^ shift + rest)
  have more : 0 < rest := by
    apply Nat.pos_of_ne_zero
    rintro rfl
    exact differs rfl
  have larger : ((n * 2 ^ shift : Nat) : ℚ) < (n * 2 ^ shift + rest : Nat) := by
    exact_mod_cast Nat.lt_add_of_pos_right more
  obtain ⟨less, lower, upper⟩ := left.middle_between right larger differs
  generalize ofNat (n * 2 ^ shift) = x at *
  generalize ofNat (n * 2 ^ shift + rest) = y at *
  have notInfinite : x.magnitude < 2 ^ (1024 : Int) := less.trans_le (magnitude_le y)
  have first := pow_le_shifted shift large
  have few := left.shift_lt first notInfinite
  obtain ⟨atLeast, a, lowerCount⟩ := left.exists_multiple first few
  obtain ⟨-, b, upperCount⟩ := right.exists_multiple (first.trans larger.le) few
  -- The middle of the two roundings is a multiple of `2 ^ shift`, so it is the integer itself.
  have sum : x.magnitude + y.magnitude = 2 * ((a + b) * 2 ^ shift : Nat) := by
    rw [lowerCount, upperCount]
    push_cast
    ring
  rw [sum] at lower upper
  have isCount : a + b = n := count_eq_of_between below (by linarith) (by linarith)
  rw [isCount] at sum
  cases x with
  | nan => exact left.signed.elim
  | infinity _ => exact absurd notInfinite (lt_irrefl _)
  | finite sign significand exponent canonical =>
      obtain rfl : sign = false := left.signed
      obtain ⟨even, next⟩ := left.neighbour_of_tie right.isNumber less sum
      have far : shift < exponent := by
        by_contra near
        exact absurd atLeast (not_le.mpr (scaled_lt canonical.1 (not_lt.mp near)))
      have normal : 2 ^ 52 ≤ significand := canonical.2.2.2.resolve_right (by omega)
      have finest : (2 : ℚ) * 2 ^ shift ≤ 2 ^ exponent := by
        rw [← zpow_natCast, ← zpow_one_add₀ two_ne_zero]
        exact zpow_le_zpow_right₀ one_le_two (by omega)
      have atMost := magnitude_le y
      rw [next, magnitude_finite] at sum
      rw [next] at atMost
      refine ⟨isMidway_of_middle normal canonical.1 even far sum, ?_⟩
      have tail : (rest : ℚ) < 2 ^ shift := by exact_mod_cast below
      have small : ((n * 2 ^ shift + rest : Nat) : ℚ) < (significand + 1 : Nat) * 2 ^ exponent := by
        push_cast at sum ⊢
        linarith
      exact lt_pow_of_cast_lt (small.trans_le atMost)

/-- The rounding of a value midway above an even significand is not that of a value beyond it. -/
theorem IsRounding.not_beyond_tie {x : Double} {significand : Nat} {exponent : Int}
    (canonical : Canonical significand exponent) (even : significand % 2 = 0) {q r : ℚ}
    (middle : 2 * q = significand * 2 ^ exponent + (significand + 1 : Nat) * 2 ^ exponent)
    (beyond : q < r) (within : r < (significand + 1 : Nat) * 2 ^ exponent)
    (rounding : x.IsRounding false q) : ¬ x.IsRounding false r := by
  intro other
  have next := canonical_succ canonical even
  have unit : (0 : ℚ) < 2 ^ exponent := by positivity
  have fromMiddle := rounding.nearest (finite false (significand + 1) exponent next) rfl
  have fromBeyond := other.nearest (finite false (significand + 1) exponent next) rfl
  rw [magnitude_finite] at fromMiddle fromBeyond
  rw [abs_le, abs_of_neg (by linarith)] at fromMiddle fromBeyond
  have above : (finite false significand exponent canonical).magnitude < x.magnitude := by
    rw [magnitude_finite]
    linarith
  obtain ⟨steps, value⟩ := exists_above rounding.isNumber above
  have isNext : x = finite false (significand + 1) exponent next := by
    refine eq_of_magnitude_eq rounding.signed (rfl : IsSigned false (finite _ _ _ _)) ?_
    have few : (significand + (steps + 1) : Nat) * (2 : ℚ) ^ exponent ≤
        (significand + 1 : Nat) * 2 ^ exponent := by
      linarith
    have counts : significand + (steps + 1) ≤ significand + 1 := by
      exact_mod_cast le_of_mul_le_mul_right few unit
    obtain rfl : steps = 0 := by omega
    exact value
  have tie : |q - (finite false significand exponent canonical).magnitude| = |q - x.magnitude| := by
    rw [isNext, magnitude_finite, magnitude_finite, abs_of_pos (by linarith),
      abs_of_neg (by linarith)]
    linarith
  have nextEven := rounding.even (finite false significand exponent canonical) rfl above.ne tie
  rw [isNext] at nextEven
  have evenToo : (significand + 1) % 2 = 0 := nextEven
  omega

/-- An integer midway above an even significand is rounded down, but not with more behind it. -/
theorem ne_of_isMidway (below : rest < 2 ^ shift) (more : 0 < rest) (midway : IsMidway n)
    (small : n * 2 ^ shift + rest < 2 ^ 1024) :
    ofNat (n * 2 ^ shift) ≠ ofNat (n * 2 ^ shift + rest) := by
  intro same
  obtain ⟨i, j, rfl, lower, upper⟩ := midway
  have few : 53 + j + shift < 1024 := by
    apply places_lt_of_lt_pow _ ((Nat.le_add_right _ rest).trans_lt small)
    rw [pow_add]
    gcongr
  have canonical : Canonical (2 * i) (j + shift + 1) :=
    ⟨by omega, by omega, by omega, Or.inl (by omega)⟩
  have unit : (2 : ℚ) ^ ((j : Int) + shift + 1) = 2 * (2 ^ j * 2 ^ shift) := by
    rw [zpow_add_one₀ two_ne_zero, zpow_add₀ two_ne_zero, zpow_natCast, zpow_natCast]
    ring
  have tail : (rest : ℚ) < 2 ^ j * 2 ^ shift := by
    have larger : rest < 2 ^ j * 2 ^ shift :=
      below.trans_le (Nat.le_mul_of_pos_left _ (by positivity))
    exact_mod_cast larger
  have right := isRounding_ofNat ((4 * i + 1) * 2 ^ j * 2 ^ shift + rest)
  rw [← same] at right
  refine IsRounding.not_beyond_tie canonical (by omega) ?_ ?_ ?_ (isRounding_ofNat _) right
  · rw [unit]
    push_cast
    ring
  · exact_mod_cast Nat.lt_add_of_pos_right more
  · rw [unit]
    push_cast
    linarith

/-- The digits behind a large integer change its rounding exactly if it lies midway between two
doubles and they are not all zero. -/
theorem ofNat_eq_iff (large : 2 ^ 53 ≤ n) (below : rest < 2 ^ shift) :
    ofNat (n * 2 ^ shift) = ofNat (n * 2 ^ shift + rest) ↔
      ¬ (rest ≠ 0 ∧ IsMidway n ∧ n * 2 ^ shift + rest < 2 ^ 1024) := by
  constructor
  · rintro same ⟨more, midway, small⟩
    exact ne_of_isMidway below (Nat.pos_of_ne_zero more) midway small same
  · intro notLost
    by_contra differs
    refine notLost ⟨?_, isMidway_of_ne large below differs⟩
    rintro rfl
    exact differs rfl

end Tie

end TreeQuery.Double
