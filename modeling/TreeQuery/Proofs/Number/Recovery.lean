import TreeQuery.Number.Printed
import TreeQuery.Proofs.Number.Layout

/-!
# Recovered digits

A printed text shows an exact value. The decimal that is recovered from it has this value and no
zero at either end, and there is only one such decimal. What is printed of a number shows the
decimal that is chosen for the number, so this is the one that is recovered.
-/

namespace TreeQuery

namespace Decimal

/-! ## One trimmed decimal for each value -/

/-- The exact value `0.d₁d₂… * 10 ^ point`. -/
def value (decimal : Decimal) : ℚ :=
  decimal.significand / 10 ^ decimal.digits.length * 10 ^ decimal.point

/-- There are digits, and no zero at either end. -/
structure IsTrimmed (decimal : Decimal) : Prop where
  proper : decimal.Proper
  first : decimal.digits.head? ≠ some '0'
  last : decimal.digits.getLast? ≠ some '0'

theorem value_eq (decimal : Decimal) :
    decimal.value = decimal.significand * 10 ^ decimal.exponent := by
  rw [value, exponent, zpow_sub₀ (by norm_num), zpow_natCast]
  ring

theorem value_ofScaled (digits : Nat) (exponent : Int) :
    (ofScaled digits exponent).value = digits * 10 ^ exponent := by
  obtain ⟨zeros, value, power⟩ := exists_significand_ofScaled digits exponent
  rw [value_eq, power, zpow_add₀ (by norm_num), zpow_natCast]
  conv_rhs => rw [value]
  push_cast
  ring

theorem isTrimmed_ofScaled {digits : Nat} (nonzero : digits ≠ 0) (exponent : Int) :
    (ofScaled digits exponent).IsTrimmed := by
  have proper := proper_ofScaled nonzero exponent
  refine ⟨proper, ?_, ?_⟩
  · obtain ⟨zeros, written⟩ := exists_zeros digits exponent
    have first := Numeric.head?_toDigits_ne_zero (Nat.pos_of_ne_zero nonzero)
    rwa [written, List.head?_append_of_ne_nil _ proper.1] at first
  · rw [ofScaled, List.getLast?_reverse]
    exact Numeric.head?_dropWhile_zeros _

theorem IsTrimmed.toDigits_significand {decimal : Decimal} (trimmed : decimal.IsTrimmed) :
    Nat.toDigits 10 decimal.significand = decimal.digits := by
  obtain ⟨⟨nonempty, areDigits⟩, notZero, -⟩ := trimmed
  rw [significand]
  cases digits : decimal.digits with
  | nil => exact absurd digits nonempty
  | cons c rest =>
      rw [digits] at areDigits notZero
      exact Numeric.toDigits_ofDigitChars_cons (fun zero => notZero (congrArg some zero)) areDigits

theorem IsTrimmed.not_ten_dvd {decimal : Decimal} (trimmed : decimal.IsTrimmed) :
    ¬ 10 ∣ decimal.significand := by
  intro dvd
  apply trimmed.last
  rw [← trimmed.toDigits_significand]
  rcases Nat.eq_zero_or_pos decimal.significand with zero | positive
  · rw [zero]
    rfl
  · exact Numeric.getLast?_toDigits_of_ten_dvd (Nat.le_of_dvd positive dvd) dvd

theorem IsTrimmed.value_ne_zero {decimal : Decimal} (trimmed : decimal.IsTrimmed) :
    decimal.value ≠ 0 := by
  have nonzero : decimal.significand ≠ 0 := fun zero => trimmed.not_ten_dvd (zero ▸ dvd_zero 10)
  rw [value_eq]
  positivity

/-- A decimal with a smaller power of ten than another of the same value ends in a zero. -/
theorem IsTrimmed.exponent_le {decimal other : Decimal} (trimmed : decimal.IsTrimmed)
    (same : decimal.value = other.value) : other.exponent ≤ decimal.exponent := by
  by_contra less
  apply trimmed.not_ten_dvd
  obtain ⟨zeros, power⟩ := Int.le.dest (Int.add_one_le_of_lt (not_le.mp less))
  have multiple : (decimal.significand : ℚ) * 10 ^ decimal.exponent =
      (other.significand * 10 ^ (zeros + 1) : Nat) * 10 ^ decimal.exponent := by
    rw [← value_eq, same, value_eq, ← power, zpow_add₀ (by norm_num), zpow_add₀ (by norm_num),
      zpow_natCast]
    push_cast
    ring
  have isMultiple : decimal.significand = other.significand * 10 ^ (zeros + 1) := by
    exact_mod_cast mul_right_cancel₀ (by positivity) multiple
  rw [isMultiple, pow_succ]
  exact Dvd.intro_left _ (mul_assoc _ _ _)

/-- No two decimals without zeros at their ends have one value. -/
theorem IsTrimmed.eq_of_value_eq {decimal other : Decimal} (trimmed : decimal.IsTrimmed)
    (otherTrimmed : other.IsTrimmed) (same : decimal.value = other.value) : decimal = other := by
  have exponents : decimal.exponent = other.exponent :=
    le_antisymm (otherTrimmed.exponent_le same.symm) (trimmed.exponent_le same)
  have significands : decimal.significand = other.significand := by
    rw [value_eq, value_eq, exponents] at same
    exact_mod_cast mul_right_cancel₀ (by positivity) same
  have digits : decimal.digits = other.digits := by
    rw [← trimmed.toDigits_significand, significands, otherTrimmed.toDigits_significand]
  have points : decimal.point = other.point := by
    rw [exponent, exponent, digits] at exponents
    omega
  cases decimal
  cases other
  rw [mk.injEq]
  exact ⟨digits, points⟩

/-! ## Zeros at the ends -/

/-- The zeros that are dropped at both ends. -/
theorem exists_stripped (decimal : Decimal) :
    ∃ before after : Nat, decimal.digits =
        List.replicate before '0' ++ (decimal.stripped.digits ++ List.replicate after '0') ∧
      (decimal.stripped.digits ++ List.replicate after '0').head? ≠ some '0' ∧
      decimal.stripped.point = decimal.point - before := by
  have front := Numeric.eq_zeros_append_dropWhile decimal.digits
  have notZero := Numeric.head?_dropWhile_zeros decimal.digits
  rw [stripped]
  generalize decimal.digits.dropWhile (· == '0') = rest at front notZero ⊢
  generalize decimal.digits.length - rest.length = before at front ⊢
  have dropped : decimal.digits.drop before = rest := by
    rw [front]
    exact List.drop_left' List.length_replicate
  obtain ⟨after, back⟩ := Numeric.exists_eq_append_zeros rest
  simp only [dropped]
  refine ⟨before, after, ?_, ?_, rfl⟩
  · rw [← back]
    exact front
  · rw [← back]
    exact notZero

/-- Dropping the zeros at the ends keeps the value. -/
theorem value_stripped (decimal : Decimal) : decimal.stripped.value = decimal.value := by
  obtain ⟨before, after, written, -, point⟩ := exists_stripped decimal
  have number : decimal.significand = decimal.stripped.significand * 10 ^ after := by
    rw [significand, written, Numeric.ofDigitChars_zeros_append,
      Numeric.ofDigitChars_append_zeros, significand]
  have length : decimal.digits.length = before + decimal.stripped.digits.length + after := by
    rw [written]
    simp [Nat.add_assoc]
  rw [value_eq, value_eq, exponent, exponent, point, number, length]
  push_cast
  rw [mul_assoc, ← zpow_natCast (10 : ℚ) after, ← zpow_add₀ (by norm_num)]
  congr 2
  ring

theorem isTrimmed_stripped {decimal : Decimal} (areDigits : ∀ c ∈ decimal.digits, c.isDigit = true)
    (nonzero : decimal.value ≠ 0) : decimal.stripped.IsTrimmed := by
  obtain ⟨before, after, written, notZero, -⟩ := exists_stripped decimal
  have nonempty : decimal.stripped.digits ≠ [] := by
    intro empty
    apply nonzero
    rw [← value_stripped, value, significand, empty, Nat.ofDigitChars_nil, Nat.cast_zero, zero_div,
      zero_mul]
  refine ⟨⟨nonempty, fun c present => areDigits c ?_⟩, ?_, ?_⟩
  · rw [written]
    exact List.mem_append_right _ (List.mem_append_left _ present)
  · rwa [List.head?_append_of_ne_nil _ nonempty] at notZero
  · rw [stripped, List.getLast?_reverse]
    exact Numeric.head?_dropWhile_zeros _

end Decimal

/-! ## Texts that show a number -/

/-- The two shapes of printed texts, with the exact value that they show: digits on both sides of a
point, or one digit, possibly with others behind a point, and a power of ten. -/
inductive Shows : List Char → ℚ → Prop
  | positional {whole fraction : List Char} (areWhole : Numeric.AreDigits whole)
      (areFraction : Numeric.AreDigits fraction) :
      Shows (whole ++ '.' :: fraction)
        (Nat.ofDigitChars 10 whole 0 + Nat.ofDigitChars 10 fraction 0 / 10 ^ fraction.length)
  | scientific {first : Char} {rest signed digits : List Char} {negative : Bool}
      (areDigits : Numeric.AreDigits (first :: rest)) (sign : Numeric.Signed signed negative digits)
      (arePower : Numeric.AreDigits digits) (few : digits.length ≤ 3) :
      Shows (first :: (if rest = [] then [] else '.' :: rest) ++ 'e' :: signed)
        ((Nat.ofDigitChars 10 [first] 0 + Nat.ofDigitChars 10 rest 0 / 10 ^ rest.length) *
          10 ^ (if negative then -Nat.ofDigitChars 10 digits 0
            else Nat.ofDigitChars 10 digits 0 : Int))

/-- What is shown is the value that the grammar of decimals assigns to the text. -/
theorem Shows.literal {text : List Char} {q : ℚ} (shown : Shows text q) :
    Numeric.DecimalLiteral text q := by
  cases shown with
  | positional areWhole areFraction =>
      have pointed := Numeric.DecimalLiteral.pointed areWhole (Or.inr areFraction) .absent
      rwa [List.append_nil, zpow_zero, mul_one] at pointed
  | @scientific first rest signed digits negative areDigits sign arePower few =>
      obtain ⟨isDigit, areRest⟩ := List.forall_mem_cons.mp areDigits.2
      have leading : Numeric.AreDigits [first] := Numeric.areDigits_singleton isDigit
      have power : Numeric.Exponent ('e' :: signed) _ := .present List.mem_cons_self sign arePower
      by_cases single : rest = []
      · subst single
        rw [if_pos rfl, Nat.ofDigitChars_nil, Nat.cast_zero, zero_div, add_zero]
        exact .whole leading power
      · rw [if_neg single]
        exact .pointed leading (Or.inr ⟨single, areRest⟩) power

namespace Numeric

theorem not_mem_of_digits {digits : List Char} (areDigits : ∀ c ∈ digits, c.isDigit = true)
    {mark : Char} (noDigit : mark.isDigit = false) : mark ∉ digits := by
  intro present
  rw [areDigits mark present] at noDigit
  cases noDigit

/-- An integer of at most three digits is read. -/
theorem integer?_of_signed {text digits : List Char} {negative : Bool}
    (sign : Signed text negative digits) (areDigits : AreDigits digits)
    (few : digits.length ≤ 3) :
    integer? text = some (if negative then -(Nat.ofDigitChars 10 digits 0 : Int)
      else Nat.ofDigitChars 10 digits 0) := by
  have split := splitSign_of_signed sign (noSign_of_digits areDigits.2)
  have accepted : digits ≠ [] ∧ digits.all Char.isDigit = true :=
    ⟨areDigits.1, List.all_eq_true.mpr areDigits.2⟩
  have small : Nat.ofDigitChars 10 digits 0 < 10 ^ 3 :=
    (ofDigitChars_lt areDigits.2).trans_le (Nat.pow_le_pow_right (by norm_num) few)
  have inRange : -2147483648 ≤ (if negative then -(Nat.ofDigitChars 10 digits 0 : Int)
        else Nat.ofDigitChars 10 digits 0) ∧
      (if negative then -(Nat.ofDigitChars 10 digits 0 : Int)
        else Nat.ofDigitChars 10 digits 0) ≤ 2147483647 := by
    cases negative
    · simp only [Bool.false_eq_true, if_false]
      omega
    · simp only [if_true]
      omega
  simp only [integer?, split]
  rw [if_pos accepted, if_pos inRange]

end Numeric

theorem splitOnce_eq_none {mark : Char} {text : List Char} (absent : mark ∉ text) :
    splitOnce mark text = none := by
  induction text with
  | nil => rfl
  | cons c text induction =>
      obtain ⟨differs, absent⟩ := List.ne_and_not_mem_of_not_mem_cons absent
      rw [splitOnce, if_neg (Ne.symm differs), induction absent]
      rfl

/-- A text is split at the first of its marks. -/
theorem splitOnce_append {mark : Char} {before : List Char} (absent : mark ∉ before)
    (behind : List Char) : splitOnce mark (before ++ mark :: behind) = some (before, behind) := by
  induction before with
  | nil => exact if_pos rfl
  | cons c before induction =>
      obtain ⟨differs, absent⟩ := List.ne_and_not_mem_of_not_mem_cons absent
      rw [List.cons_append, splitOnce, if_neg (Ne.symm differs), induction absent]
      rfl

namespace Decimal

/-! ## Recovery -/

/-- The digits on both sides of a point and a power of ten have the value that they show. -/
theorem value_pointed (whole fraction : List Char) (power : Int) :
    (mk (whole ++ fraction) (whole.length + power)).value =
      (Nat.ofDigitChars 10 whole 0 + Nat.ofDigitChars 10 fraction 0 / 10 ^ fraction.length) *
        10 ^ power := by
  have moved : ((whole.length : Int) + power) - (whole ++ fraction).length =
      power - fraction.length := by
    rw [List.length_append]
    omega
  rw [← Numeric.ofDigitChars_append_mul_zpow, value_eq, exponent, significand]
  simp only [moved]

/-- What is recovered from a printed text is all of its digits, stripped. -/
theorem recover_eq_stripped {text : List Char} {q : ℚ} (shown : Shows text q) :
    ∃ decimal : Decimal, recover text = decimal.stripped ∧ decimal.value = q ∧
      ∀ c ∈ decimal.digits, c.isDigit = true := by
  -- No digit is a mark, so each split is at the mark of the shape.
  have noMark : 'e'.isDigit = false := rfl
  have noPoint : '.'.isDigit = false := rfl
  cases shown with
  | @positional whole fraction areWhole areFraction =>
      refine ⟨⟨whole ++ fraction, whole.length + 0⟩, ?_, ?_,
        List.forall_mem_append.mpr ⟨areWhole.2, areFraction.2⟩⟩
      · have unmarked : 'e' ∉ whole ++ '.' :: fraction := by
          rw [List.mem_append, List.mem_cons, not_or, not_or]
          exact ⟨Numeric.not_mem_of_digits areWhole.2 noMark, by decide,
            Numeric.not_mem_of_digits areFraction.2 noMark⟩
        have split := splitOnce_append (Numeric.not_mem_of_digits areWhole.2 noPoint) fraction
        simp only [recover, splitOnce_eq_none unmarked, split, Option.getD_some]
      · rw [value_pointed, zpow_zero, mul_one]
  | @scientific first rest signed digits negative areDigits sign arePower few =>
      refine ⟨⟨[first] ++ rest, ([first].length : Int) + _⟩, ?_, value_pointed [first] rest _,
        areDigits.2⟩
      have noMarks := Numeric.not_mem_of_digits areDigits.2 noMark
      have noPoints := Numeric.not_mem_of_digits areDigits.2 noPoint
      have power := Numeric.integer?_of_signed sign arePower few
      by_cases single : rest = []
      · subst single
        have split := splitOnce_append noMarks signed
        rw [if_pos rfl]
        simp only [recover, split, power, splitOnce_eq_none noPoints, Option.getD_some,
          Option.getD_none]
      · rw [if_neg single]
        have unmarked : 'e' ∉ first :: '.' :: rest := by
          rw [List.mem_cons, List.mem_cons, not_or, not_or]
          obtain ⟨first, rest⟩ := List.ne_and_not_mem_of_not_mem_cons noMarks
          exact ⟨first, by decide, rest⟩
        have split := splitOnce_append unmarked signed
        have pointed : splitOnce '.' (first :: '.' :: rest) = some ([first], rest) :=
          splitOnce_append (List.not_mem_cons_of_ne_of_not_mem
            (List.ne_of_not_mem_cons noPoints) List.not_mem_nil) rest
        simp only [recover, split, power, pointed, Option.getD_some]

/-- The decimal that is recovered from a printed text has the value that is shown and no zero at
either end. -/
theorem isTrimmed_recover {text : List Char} {q : ℚ} (shown : Shows text q) (nonzero : q ≠ 0) :
    (recover text).IsTrimmed ∧ (recover text).value = q := by
  obtain ⟨decimal, recovered, rfl, areDigits⟩ := recover_eq_stripped shown
  rw [recovered]
  exact ⟨isTrimmed_stripped areDigits nonzero, value_stripped decimal⟩

/-! ## The printed text of a number -/

/-- What reads back as a number that is neither zero nor infinite is within the decades of
binary64. -/
theorem point_of_ofDecimal {digits : Nat} {unit : Int} {significand : Nat} {exponent : Int}
    {canonical : Double.Canonical significand exponent} (nonzero : significand ≠ 0)
    (reads : Double.ofDecimal false digits unit = .finite false significand exponent canonical) :
    -330 ≤ (ofScaled digits unit).point ∧ (ofScaled digits unit).point ≤ 310 := by
  have notZero : Double.zero false ≠ .finite false significand exponent canonical := by
    rintro ⟨⟩
    exact nonzero rfl
  have point : (ofScaled digits unit).point = (Nat.toDigits 10 digits).length + unit := rfl
  rw [Double.ofDecimal] at reads
  split at reads
  · exact absurd reads notZero
  · split at reads
    · cases reads
    · split at reads
      · exact absurd reads notZero
      · omega

/-- What is printed has one of the two shapes. -/
theorem exists_shows_magnitude {decimal : Decimal} (proper : decimal.Proper)
    (least : -330 ≤ decimal.point) (greatest : decimal.point ≤ 310) :
    ∃ q, Shows (printer.magnitude decimal) q := by
  obtain ⟨digits, point⟩ := decimal
  obtain ⟨nonempty, areDigits⟩ := proper
  have ofTake : ∀ count, ∀ c ∈ digits.take count, c.isDigit = true :=
    fun count c present => areDigits c (List.mem_of_mem_take present)
  have ofDrop : ∀ count, ∀ c ∈ digits.drop count, c.isDigit = true :=
    fun count c present => areDigits c (List.mem_of_mem_drop present)
  have zero : Numeric.AreDigits ['0'] := Numeric.areDigits_singleton rfl
  rw [printer.magnitude_eq nonempty]
  simp only [Layout.unchecked] at *
  split
  · have keepsFraction : printer.wholeFraction = true := rfl
    rw [if_pos keepsFraction]
    refine ⟨_, .positional ⟨?_, fun c => Numeric.isDigit_of_mem_padded areDigits⟩ zero⟩
    simp [nonempty]
  · split
    · refine ⟨_, .positional ⟨?_, ofTake _⟩ ⟨?_, ofDrop _⟩⟩
      · simp [nonempty]
        omega
      · simp
        omega
    · split
      · refine ⟨_, .positional zero ⟨?_, ?_⟩⟩
        · simp [nonempty]
        · exact List.forall_mem_append.mpr
            ⟨fun c present => Numeric.isDigit_of_mem_zeros present, areDigits⟩
      · obtain ⟨first, rest, rfl⟩ := List.exists_cons_of_ne_nil nonempty
        obtain ⟨signed, negative, written, sign, -⟩ := Numeric.exists_power_eq printer (point - 1)
        -- The bounds on the point keep the power within three digits.
        have few : (Layout.natural (point - 1).natAbs).length ≤ 3 :=
          (Nat.length_toDigits_le_iff (by norm_num) (by norm_num)).mpr (by omega)
        have mantissa : (first :: rest).take 1 ++
            (if (first :: rest).length ≤ 1 then [] else '.' :: (first :: rest).drop 1) =
              first :: (if rest = [] then [] else '.' :: rest) := by simp
        rw [written, mantissa]
        exact ⟨_, .scientific ⟨nonempty, areDigits⟩ sign (Numeric.areDigits_natural _) few⟩

/-- What is printed shows the value of the decimal. -/
theorem shows_magnitude {decimal : Decimal} (proper : decimal.Proper)
    (least : -330 ≤ decimal.point) (greatest : decimal.point ≤ 310) :
    Shows (printer.magnitude decimal) decimal.value := by
  obtain ⟨q, shown⟩ := exists_shows_magnitude proper least greatest
  obtain ⟨zeros, read⟩ := decimal?_magnitude printer proper
  have value : q = decimal.value := by
    rw [Numeric.value_of_literal shown.literal read, value_eq, zpow_sub₀ (by norm_num),
      zpow_natCast]
    push_cast
    field_simp
  rwa [value] at shown

section Number

variable {significand : Nat} {exponent : Int} (canonical : Double.Canonical significand exponent)
  (nonzero : significand ≠ 0)

include nonzero

theorem isTrimmed_shortest : (shortest significand exponent canonical).IsTrimmed := by
  obtain ⟨digits, unit, someDigit, chosen, -⟩ := exists_shortest_eq canonical nonzero
  rw [chosen]
  exact isTrimmed_ofScaled someDigit unit

theorem shows_printed :
    Shows (printed significand exponent canonical)
      (shortest significand exponent canonical).value := by
  obtain ⟨digits, unit, someDigit, chosen, reads⟩ := exists_shortest_eq canonical nonzero
  obtain ⟨least, greatest⟩ := point_of_ofDecimal nonzero reads
  rw [printed, Layout.finite, if_neg nonzero, if_neg (by decide), List.nil_append, chosen]
  exact shows_magnitude (proper_ofScaled someDigit unit) least greatest

/-- The decimal recovered from what is printed of a number is the one chosen for the number. -/
theorem recover_printed :
    recover (printed significand exponent canonical) =
      shortest significand exponent canonical := by
  have trimmed := isTrimmed_shortest canonical nonzero
  obtain ⟨recovered, value⟩ :=
    isTrimmed_recover (shows_printed canonical nonzero) trimmed.value_ne_zero
  exact recovered.eq_of_value_eq trimmed value

end Number

end Decimal

end TreeQuery
