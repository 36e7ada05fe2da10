import TreeQuery.Proofs.Number.Grammar

/-!
# Layouts of decimals

A layout only moves the point and adds zeros, with no count and no place out of range. So what is
read from it is the decimal that was laid out, up to zeros that move into its power of ten. The
decimal chosen for a number is one that reads back as the number.
-/

namespace TreeQuery

namespace Decimal

/-- There are digits and nothing else. -/
def Proper (decimal : Decimal) : Prop :=
  decimal.digits ≠ [] ∧ ∀ c ∈ decimal.digits, c.isDigit = true

/-- The digits as one natural number. -/
def significand (decimal : Decimal) : Nat :=
  Nat.ofDigitChars 10 decimal.digits 0

/-- The power of ten that the digits are multiplied by. -/
def exponent (decimal : Decimal) : Int :=
  decimal.point - decimal.digits.length

/-- The number nearest to a decimal with the given sign. -/
def read (decimal : Decimal) (negative : Bool) : Double :=
  .ofDecimal negative decimal.significand decimal.exponent

end Decimal

/-! ## No count or place is out of range -/

/-- A positive decimal without a look at counts and places. -/
def Layout.unchecked (layout : Layout) (decimal : Decimal) : List Char :=
  let digits := decimal.digits
  let point := decimal.point
  if digits.length ≤ point ∧ point ≤ layout.greatest then
    digits ++ List.replicate (point - digits.length).toNat '0' ++
      (if layout.wholeFraction then ['.', '0'] else [])
  else if 0 < point ∧ point ≤ layout.greatest then
    digits.take point.toNat ++ '.' :: digits.drop point.toNat
  else if layout.least < point ∧ point ≤ 0 then
    '0' :: '.' :: List.replicate (-point).toNat '0' ++ digits
  else
    digits.take 1 ++ (if digits.length ≤ 1 then [] else '.' :: digits.drop 1) ++
      layout.power (point - 1)

theorem Layout.zeros?_eq {count : Int} (nonnegative : 0 ≤ count) :
    zeros? count = some (List.replicate count.toNat '0') :=
  if_pos nonnegative

theorem Layout.split?_eq {digits : List Char} {place : Int} (nonnegative : 0 ≤ place)
    (atMost : place ≤ digits.length) :
    split? digits place = some (digits.take place.toNat, digits.drop place.toNat) := by
  rw [split?, if_pos ⟨nonnegative, atMost⟩, List.splitAt_eq]

/-- Where there are digits, no count of zeros is negative and no place lies outside the digits. -/
theorem Layout.magnitude?_eq (layout : Layout) {decimal : Decimal}
    (nonempty : decimal.digits ≠ []) :
    layout.magnitude? decimal = some (layout.unchecked decimal) := by
  obtain ⟨digits, point⟩ := decimal
  have length : 0 < digits.length := List.length_pos_of_ne_nil nonempty
  simp only [magnitude?, unchecked]
  split
  · rename_i whole
    rw [zeros?_eq (by omega)]
    rfl
  · split
    · rename_i notWhole mixed
      rw [split?_eq (by omega) (by omega)]
      rfl
    · split
      · rename_i small
        rw [zeros?_eq (by omega)]
        rfl
      · rw [split?_eq (by norm_num) (by omega)]
        have single : (digits.drop 1).isEmpty = true ↔ digits.length ≤ 1 :=
          List.isEmpty_iff.trans List.drop_eq_nil_iff
        simp only [Int.toNat_one, Option.bind_eq_bind, Option.bind_some, single]
        rfl

theorem Layout.magnitude_eq (layout : Layout) {decimal : Decimal}
    (nonempty : decimal.digits ≠ []) : layout.magnitude decimal = layout.unchecked decimal := by
  rw [magnitude, layout.magnitude?_eq nonempty, Option.getD_some]

namespace Numeric

theorem isDigit_of_mem_natural {n : Nat} {c : Char} (present : c ∈ Layout.natural n) :
    c.isDigit = true :=
  Nat.isDigit_of_mem_toDigits (by norm_num) (by norm_num) present

theorem areDigits_natural (n : Nat) : AreDigits (Layout.natural n) :=
  ⟨Nat.toDigits_ne_nil, fun _ => isDigit_of_mem_natural⟩

/-- A power of ten is its mark, a sign that may be left out, and digits. -/
theorem exists_power_eq (layout : Layout) (exponent : Int) :
    ∃ signed negative, layout.power exponent = 'e' :: signed ∧
      Signed signed negative (Layout.natural exponent.natAbs) ∧
      (if negative then -(exponent.natAbs : Int) else exponent.natAbs) = exponent := by
  rw [Layout.power]
  by_cases below : exponent < 0
  · rw [if_pos below]
    refine ⟨_, _, rfl, .minus _, ?_⟩
    rw [if_pos rfl]
    omega
  · have value : (exponent.natAbs : Int) = exponent := by omega
    rw [if_neg below]
    cases layout.plus with
    | true => exact ⟨_, _, rfl, .plus _, value⟩
    | false => exact ⟨_, _, rfl, .plain _, value⟩

theorem exponent?_power (layout : Layout) (exponent : Int) :
    exponent? (layout.power exponent) = some exponent := by
  obtain ⟨signed, negative, written, sign, value⟩ := exists_power_eq layout exponent
  have power : Exponent ('e' :: signed) _ :=
    .present List.mem_cons_self sign (areDigits_natural _)
  rw [Layout.natural, Nat.ofDigitChars_ten_toDigits, value] at power
  rw [written]
  exact exponent?_eq_some_iff.mpr power

/-! ## The layouts are read back -/

section Digits

variable {digits : List Char} (areDigits : ∀ c ∈ digits, c.isDigit = true) (nonempty : digits ≠ [])

include areDigits

theorem isDigit_of_mem_padded {zeros : Nat} {c : Char}
    (present : c ∈ digits ++ List.replicate zeros '0') : c.isDigit = true := by
  rcases List.mem_append.mp present with inDigits | inZeros
  · exact areDigits c inDigits
  · exact isDigit_of_mem_zeros inZeros

/-- The point among the digits. -/
theorem decimal?_split {before : Nat} (leading : digits.take before ≠ []) :
    decimal? (digits.take before ++ '.' :: digits.drop before) =
      some (Nat.ofDigitChars 10 digits 0, -((digits.length - before : Nat) : Int)) := by
  have read := decimal?_fraction (digits.take before) (digits.drop before) []
    (fun c present => areDigits c (List.mem_of_mem_take present)) (Or.inl leading)
    (fun c present => areDigits c (List.mem_of_mem_drop present)) (by simp)
  rw [List.append_nil, List.take_append_drop, List.length_drop] at read
  rw [read]
  simp [exponent?]

/-- All digits behind the point, with zeros to fill the gap. -/
theorem decimal?_small (zeros : Nat) :
    decimal? ('0' :: '.' :: List.replicate zeros '0' ++ digits) =
      some (Nat.ofDigitChars 10 digits 0, -((zeros + digits.length : Nat) : Int)) := by
  have fraction : ∀ c ∈ List.replicate zeros '0' ++ digits, c.isDigit = true := by
    intro c present
    rcases List.mem_append.mp present with inZeros | inDigits
    · exact isDigit_of_mem_zeros inZeros
    · exact areDigits c inDigits
  have read := decimal?_fraction ['0'] (List.replicate zeros '0' ++ digits) [] (by simp) (by simp)
    fraction (by simp)
  have value : Nat.ofDigitChars 10 (['0'] ++ (List.replicate zeros '0' ++ digits)) 0 =
      Nat.ofDigitChars 10 digits 0 := ofDigitChars_zeros_append digits (zeros + 1)
  rw [List.append_nil, value] at read
  refine Eq.trans read ?_
  simp [exponent?]

include nonempty

/-- All digits before the point, with zeros to fill the gap. -/
theorem decimal?_padded (zeros : Nat) :
    decimal? (digits ++ List.replicate zeros '0') =
      some (Nat.ofDigitChars 10 digits 0 * 10 ^ zeros, 0) := by
  have read := decimal?_whole (digits ++ List.replicate zeros '0') []
    (fun c => isDigit_of_mem_padded areDigits) (by simp [nonempty]) (by simp)
  rw [List.append_nil, ofDigitChars_append_zeros] at read
  exact read

/-- The same with a fraction of one zero. -/
theorem decimal?_padded_fraction (zeros : Nat) :
    decimal? (digits ++ List.replicate zeros '0' ++ ['.', '0']) =
      some (Nat.ofDigitChars 10 digits 0 * 10 ^ (zeros + 1), -1) := by
  have read := decimal?_fraction (digits ++ List.replicate zeros '0') ['0'] []
    (fun c => isDigit_of_mem_padded areDigits) (by simp [nonempty]) (by simp) (by simp)
  have oneMore : digits ++ List.replicate zeros '0' ++ ['0'] =
      digits ++ List.replicate (zeros + 1) '0' := by
    rw [List.replicate_succ', List.append_assoc]
  rw [oneMore, ofDigitChars_append_zeros] at read
  exact read

/-- One digit before the point and a power of ten. -/
theorem decimal?_scientific (layout : Layout) (exponent : Int) :
    decimal? (digits.take 1 ++ (if digits.length ≤ 1 then [] else '.' :: digits.drop 1) ++
      layout.power exponent) =
        some (Nat.ofDigitChars 10 digits 0, exponent - (digits.length - 1 : Nat)) := by
  have power : ∀ c ∈ (layout.power exponent).head?, c.isDigit = false ∧ c ≠ '.' := by
    rintro c ⟨⟩
    decide
  split
  · rename_i single
    have all : digits.take 1 = digits := List.take_of_length_le single
    rw [all, List.append_nil, decimal?_whole digits _ areDigits nonempty power, exponent?_power]
    simp [single]
  · have first : digits.take 1 ≠ [] := by simp [nonempty]
    rw [List.append_assoc, List.cons_append, decimal?_fraction _ _ _
      (fun c present => areDigits c (List.mem_of_mem_take present)) (Or.inl first)
      (fun c present => areDigits c (List.mem_of_mem_drop present))
      (fun c atHead => (power c atHead).1), exponent?_power, List.take_append_drop,
      List.length_drop]
    rfl

end Digits

end Numeric

namespace Decimal

/-- A decimal is read off its layout, up to zeros at its end. -/
theorem decimal?_magnitude (layout : Layout) {decimal : Decimal} (proper : decimal.Proper) :
    ∃ zeros : Nat, Numeric.decimal? (layout.magnitude decimal) =
      some (decimal.significand * 10 ^ zeros, decimal.exponent - zeros) := by
  obtain ⟨digits, point⟩ := decimal
  obtain ⟨nonempty, areDigits⟩ := proper
  simp only at nonempty areDigits
  have length : 0 < digits.length := List.length_pos_of_ne_nil nonempty
  rw [layout.magnitude_eq nonempty]
  simp only [Layout.unchecked, significand, exponent]
  split
  · rename_i positional
    cases layout.wholeFraction with
    | false =>
        refine ⟨(point - digits.length).toNat, ?_⟩
        rw [if_neg (by decide), List.append_nil, Numeric.decimal?_padded areDigits nonempty]
        congr 2
        omega
    | true =>
        refine ⟨(point - digits.length).toNat + 1, ?_⟩
        rw [if_pos rfl, Numeric.decimal?_padded_fraction areDigits nonempty]
        congr 2
        omega
  · refine ⟨0, ?_⟩
    rw [pow_zero, mul_one]
    split
    · rename_i notWhole mixed
      have leading : digits.take point.toNat ≠ [] := by
        simp [nonempty]
        omega
      rw [Numeric.decimal?_split areDigits leading]
      congr 2
      omega
    · split
      · rename_i small
        rw [Numeric.decimal?_small areDigits]
        congr 2
        omega
      · rw [Numeric.decimal?_scientific areDigits nonempty layout]
        congr 2
        omega

theorem power_numeral (layout : Layout) (exponent : Int) :
    ∀ c ∈ layout.power exponent, Numeric.IsNumeral c := by
  obtain ⟨signed, negative, written, sign, -⟩ := Numeric.exists_power_eq layout exponent
  have ofNatural : ∀ c ∈ Layout.natural exponent.natAbs, Numeric.IsNumeral c :=
    fun c present => Or.inl (Numeric.isDigit_of_mem_natural present)
  rw [written, List.forall_mem_cons]
  refine ⟨Or.inr (by decide), ?_⟩
  cases sign with
  | plain => exact ofNatural
  | plus => exact List.forall_mem_cons.mpr ⟨Or.inr (by decide), ofNatural⟩
  | minus => exact List.forall_mem_cons.mpr ⟨Or.inr (by decide), ofNatural⟩

/-- A layout is made of the characters of numerals. -/
theorem magnitude_numeral (layout : Layout) {decimal : Decimal} (proper : decimal.Proper) :
    ∀ c ∈ layout.magnitude decimal, Numeric.IsNumeral c := by
  obtain ⟨digits, point⟩ := decimal
  obtain ⟨nonempty, areDigits⟩ := proper
  simp only at nonempty areDigits
  have ofZeros : ∀ {zeros c}, c ∈ List.replicate zeros '0' → Numeric.IsNumeral c :=
    fun present => Or.inl (Numeric.isDigit_of_mem_zeros present)
  have ofTake : ∀ {count c}, c ∈ digits.take count → Numeric.IsNumeral c :=
    fun present => Or.inl (areDigits _ (List.mem_of_mem_take present))
  have ofDrop : ∀ {count c}, c ∈ digits.drop count → Numeric.IsNumeral c :=
    fun present => Or.inl (areDigits _ (List.mem_of_mem_drop present))
  intro c present
  rw [layout.magnitude_eq nonempty] at present
  simp only [Layout.unchecked] at present
  split at present
  · rcases List.mem_append.mp present with inWhole | inFraction
    · exact Or.inl (Numeric.isDigit_of_mem_padded areDigits inWhole)
    · split at inFraction
      · rcases inFraction with _ | ⟨_, _ | ⟨_, ⟨⟩⟩⟩
        · exact Or.inr (by decide)
        · exact Or.inl (by decide)
      · cases inFraction
  · split at present
    · rcases List.mem_append.mp present with before | _ | ⟨_, after⟩
      · exact ofTake before
      · exact Or.inr (by decide)
      · exact ofDrop after
    · split at present
      · rcases List.mem_append.mp present with (_ | ⟨_, _ | ⟨_, inZeros⟩⟩) | inDigits
        · exact Or.inl (by decide)
        · exact Or.inr (by decide)
        · exact ofZeros inZeros
        · exact Or.inl (areDigits c inDigits)
      · rcases List.mem_append.mp present with inMantissa | inPower
        · rcases List.mem_append.mp inMantissa with before | inFraction
          · exact ofTake before
          · split at inFraction
            · cases inFraction
            · rcases inFraction with _ | ⟨_, after⟩
              · exact Or.inr (by decide)
              · exact ofDrop after
        · exact power_numeral layout _ c inPower

/-- A layout begins with a digit. -/
theorem magnitude_head (layout : Layout) {decimal : Decimal} (proper : decimal.Proper) :
    ∃ first rest, layout.magnitude decimal = first :: rest ∧ first.isDigit = true := by
  obtain ⟨digits, point⟩ := decimal
  obtain ⟨nonempty, areDigits⟩ := proper
  obtain ⟨first, rest, rfl⟩ := List.exists_cons_of_ne_nil nonempty
  have isDigit := areDigits first List.mem_cons_self
  rw [layout.magnitude_eq nonempty]
  simp only [Layout.unchecked]
  split
  · exact ⟨first, _, rfl, isDigit⟩
  · split
    · rename_i mixed
      obtain ⟨before, same⟩ : ∃ before, point.toNat = before + 1 := ⟨point.toNat - 1, by omega⟩
      rw [same]
      exact ⟨first, _, rfl, isDigit⟩
    · split
      · exact ⟨'0', _, rfl, rfl⟩
      · exact ⟨first, _, rfl, isDigit⟩

end Decimal

namespace Numeric

theorem ofTrimmed_numeral {text : List Char} {digits : Nat} {exponent : Int}
    (numeral : ∀ c ∈ text, IsNumeral c) (read : decimal? text = some (digits, exponent))
    (negative : Bool) :
    ofTrimmed ((if negative then ['-'] else []) ++ text) = .ofDecimal negative digits exponent := by
  have nonempty : text.isEmpty = false := by
    cases text with
    | nil => cases read
    | cons _ _ => rfl
  have notInfinity : text ≠ "Infinity".toList := by
    rintro rfl
    cases read
  cases negative with
  | true =>
      have sign : splitSign ('-' :: text) = (true, text) := rfl
      rw [if_pos rfl, List.singleton_append, ofTrimmed_eq rfl rfl, sign, if_neg notInfinity, read]
  | false =>
      rw [if_neg (by decide), List.nil_append, ofTrimmed_eq nonempty (baseMark?_eq_none numeral),
        splitSign_eq_self (noSign_of_decimal? read), if_neg notInfinity, read]

/-- The layout of a decimal reads as the number nearest to it. -/
theorem ofText_magnitude (layout : Layout) {decimal : Decimal} (proper : decimal.Proper)
    (negative : Bool) :
    ofText (String.ofList ((if negative then ['-'] else []) ++ layout.magnitude decimal)) =
      decimal.read negative := by
  obtain ⟨zeros, read⟩ := Decimal.decimal?_magnitude layout proper
  have numeral := Decimal.magnitude_numeral layout proper
  have noBlanks : ∀ c ∈ (if negative then ['-'] else []) ++ layout.magnitude decimal,
      Text.isBlank c = false := by
    intro c present
    apply isBlank_of_isNumeral
    rcases List.mem_append.mp present with inSign | inMagnitude
    · cases negative with
      | true =>
          obtain rfl := List.mem_singleton.mp inSign
          exact Or.inr (by decide)
      | false => cases inSign
    · exact numeral c inMagnitude
  rw [ofText, String.toList_ofList, trim_eq_self noBlanks, ofTrimmed_numeral numeral read,
    Double.ofDecimal_mul_pow, sub_add_cancel, Decimal.read]

end Numeric

/-! ## The decimal of a number -/

namespace Decimal

/-- Only zeros are dropped. -/
theorem exists_zeros (digits : Nat) (exponent : Int) :
    ∃ zeros, Nat.toDigits 10 digits =
      (ofScaled digits exponent).digits ++ List.replicate zeros '0' :=
  Numeric.exists_eq_append_zeros _

theorem proper_ofScaled {digits : Nat} (nonzero : digits ≠ 0) (exponent : Int) :
    (ofScaled digits exponent).Proper := by
  obtain ⟨zeros, written⟩ := exists_zeros digits exponent
  constructor
  · intro empty
    have value := congrArg (Nat.ofDigitChars 10 · 0) written
    simp only [empty, Nat.ofDigitChars_ten_toDigits, Numeric.ofDigitChars_append_zeros] at value
    simp [nonzero] at value
  · intro c present
    have inWritten : c ∈ Nat.toDigits 10 digits := by
      rw [written]
      exact List.mem_append_left _ present
    exact Nat.isDigit_of_mem_toDigits (by norm_num) (by norm_num) inWritten

/-- The zeros that are dropped move into the power of ten. -/
theorem exists_significand_ofScaled (digits : Nat) (exponent : Int) :
    ∃ zeros : Nat, digits = (ofScaled digits exponent).significand * 10 ^ zeros ∧
      (ofScaled digits exponent).exponent = exponent + zeros := by
  obtain ⟨zeros, written⟩ := exists_zeros digits exponent
  refine ⟨zeros, ?_, ?_⟩
  · rw [significand, ← Numeric.ofDigitChars_append_zeros, ← written,
      Nat.ofDigitChars_ten_toDigits]
  · have length : (Nat.toDigits 10 digits).length =
        (ofScaled digits exponent).digits.length + zeros := by
      conv_lhs => rw [written]
      simp
    have point : (ofScaled digits exponent).point =
        (Nat.toDigits 10 digits).length + exponent := rfl
    rw [Decimal.exponent, point, length]
    push_cast
    ring

/-- Dropping zeros does not change what is read. -/
theorem read_ofScaled (digits : Nat) (exponent : Int) (negative : Bool) :
    (ofScaled digits exponent).read negative = .ofDecimal negative digits exponent := by
  obtain ⟨zeros, value, power⟩ := exists_significand_ofScaled digits exponent
  conv_rhs => rw [value]
  rw [read, power, Double.ofDecimal_mul_pow]

/-- What is found on a grid reads back. -/
theorem ofDecimal_of_onGrid {x : Double} {n d digits : Nat} {unit : Int}
    (found : onGrid? x n d unit = some digits) : Double.ofDecimal false digits unit = x := by
  simp only [onGrid?] at found
  split at found
  · rename_i reads
    obtain rfl := Option.some.inj found
    exact of_decide_eq_true reads
  · split at found
    · rename_i reads
      obtain rfl := Option.some.inj found
      exact of_decide_eq_true reads
    · split at found
      · rename_i reads
        obtain rfl := Option.some.inj found
        exact of_decide_eq_true reads
      · cases found

theorem ofDecimal_of_search {x : Double} {n d : Nat} {decimal : Decimal}
    (found : search? x n d = some decimal) :
    ∃ digits unit, decimal = ofScaled digits unit ∧ Double.ofDecimal false digits unit = x := by
  obtain ⟨i, -, atGrid⟩ := List.exists_of_findSome?_eq_some found
  obtain ⟨digits, onGrid, rfl⟩ := Option.map_eq_some_iff.mp atGrid
  exact ⟨digits, _, rfl, ofDecimal_of_onGrid onGrid⟩

/-- All digits of a number give it exactly. -/
theorem ofDecimal_exact {significand : Nat} {exponent : Int}
    (canonical : Double.Canonical significand exponent) (nonzero : significand ≠ 0) :
    Double.ofDecimal false (significand * 2 ^ exponent.toNat * 5 ^ (-exponent).toNat)
      (min exponent 0) = .finite false significand exponent canonical := by
  have whole : (min exponent 0).toNat = 0 := by omega
  have places : (-min exponent 0).toNat = (-exponent).toNat := by omega
  rw [← Double.ofScaled_eq_finite false canonical nonzero, Double.ofScaled,
    Double.ofDecimal_eq_ofRatio, whole, places]
  apply Double.ofRatio_congr false (by positivity) (by positivity)
  rw [pow_zero, mul_one, mul_assoc, ← mul_pow]
  norm_num

/-- The decimal chosen for a number is a multiple of a power of ten that reads back as the number,
without the zeros at its end. -/
theorem exists_shortest_eq {significand : Nat} {exponent : Int}
    (canonical : Double.Canonical significand exponent) (nonzero : significand ≠ 0) :
    ∃ digits unit, digits ≠ 0 ∧ shortest significand exponent canonical = ofScaled digits unit ∧
      Double.ofDecimal false digits unit = .finite false significand exponent canonical := by
  obtain ⟨digits, unit, chosen, reads⟩ : ∃ digits unit,
      shortest significand exponent canonical = ofScaled digits unit ∧
        Double.ofDecimal false digits unit = .finite false significand exponent canonical := by
    rw [shortest]
    cases found : search? (.finite false significand exponent canonical)
        (significand * 2 ^ exponent.toNat) (2 ^ (-exponent).toNat) with
    | some decimal => exact ofDecimal_of_search found
    | none => exact ⟨_, _, rfl, ofDecimal_exact canonical nonzero⟩
  refine ⟨digits, unit, ?_, chosen, reads⟩
  rintro rfl
  cases reads
  exact nonzero rfl

/-- The decimal chosen for a number has digits and reads back as the number. -/
theorem shortest_reads_back {significand : Nat} {exponent : Int}
    (canonical : Double.Canonical significand exponent) (nonzero : significand ≠ 0) :
    (shortest significand exponent canonical).Proper ∧
      (shortest significand exponent canonical).read false =
        .finite false significand exponent canonical := by
  obtain ⟨digits, unit, someDigit, chosen, reads⟩ := exists_shortest_eq canonical nonzero
  rw [chosen]
  exact ⟨proper_ofScaled someDigit unit, (read_ofScaled digits unit false).trans reads⟩

end Decimal

end TreeQuery
