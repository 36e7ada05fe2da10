import Mathlib.Tactic.Linarith
import Mathlib.Tactic.NormNum

/-!
# Decimal digits

A natural number has one decimal writing without a zero in front. Zeros behind digits multiply their
number by powers of ten, zeros before them do not change it.
-/

namespace TreeQuery.Numeric

theorem digitChar_of_isDigit {c : Char} (isDigit : c.isDigit = true) :
    (c.toNat - '0'.toNat).digitChar = c ∧ c.toNat - '0'.toNat < 10 := by
  obtain ⟨least, greatest⟩ : 48 ≤ c.toNat ∧ c.toNat ≤ 57 := Char.isDigit_iff_toNat.mp isDigit
  have small : c.toNat - '0'.toNat < 10 := by
    change c.toNat - 48 < 10
    omega
  refine ⟨Char.toNat_inj.mp ?_, small⟩
  rw [Nat.toNat_digitChar_of_lt_ten small]
  change 48 + (c.toNat - 48) = c.toNat
  omega

/-! ## The digits of a number -/

theorem head?_toDigits_ne_zero {number : Nat} (positive : 0 < number) :
    (Nat.toDigits 10 number).head? ≠ some '0' := by
  induction number using Nat.strong_induction_on with
  | _ number induction =>
      by_cases single : number < 10
      · have table : ∀ digit ∈ List.range 10, 0 < digit → [digit.digitChar].head? ≠ some '0' := by
          decide
        rw [Nat.toDigits_of_lt_base single]
        exact table number (List.mem_range.mpr single) positive
      · have others := induction (number / 10) (by omega) (by omega)
        rw [Nat.toDigits_of_base_le (by omega) (by omega), List.head?_append]
        cases digits : (Nat.toDigits 10 (number / 10)).head? with
        | none => exact absurd (List.head?_eq_none_iff.mp digits) Nat.toDigits_ne_nil
        | some digit =>
            rw [digits] at others
            exact others

theorem getLast?_toDigits_of_ten_dvd {number : Nat} (large : 10 ≤ number) (dvd : 10 ∣ number) :
    (Nat.toDigits 10 number).getLast? = some '0' := by
  rw [Nat.toDigits_of_base_le (by norm_num) large, List.getLast?_concat, Nat.mod_eq_zero_of_dvd dvd]
  rfl

theorem pow_length_toDigits_le {number : Nat} (nonzero : number ≠ 0) :
    10 ^ ((Nat.toDigits 10 number).length - 1) ≤ number := by
  have positive : 0 < (Nat.toDigits 10 number).length := Nat.length_toDigits_pos
  by_cases single : (Nat.toDigits 10 number).length = 1
  · rw [single]
    exact Nat.pos_of_ne_zero nonzero
  · by_contra tooLarge
    have short := (Nat.length_toDigits_le_iff (by norm_num) (by omega)).mpr (not_le.mp tooLarge)
    omega

theorem lt_pow_length_toDigits (number : Nat) : number < 10 ^ (Nat.toDigits 10 number).length :=
  (Nat.length_toDigits_le_iff (by norm_num) Nat.length_toDigits_pos).mp le_rfl

theorem exists_length_toDigits {number : Nat} (nonzero : number ≠ 0) :
    ∃ places : Nat, (Nat.toDigits 10 number).length = places + 1 ∧ 10 ^ places ≤ number ∧
      number < 10 ^ (places + 1) := by
  obtain ⟨places, length⟩ := Nat.exists_eq_succ_of_ne_zero
    (Nat.length_toDigits_pos : 0 < (Nat.toDigits 10 number).length).ne'
  have lower := pow_length_toDigits_le nonzero
  have upper := lt_pow_length_toDigits number
  rw [length] at lower upper
  exact ⟨places, length, lower, upper⟩

/-! ## The number that digits write -/

/-- Digits behind those of a positive number are the last digits of the number that all of them
write. -/
theorem toDigits_ofDigitChars {digits : List Char} {first : Nat} (positive : 0 < first)
    (areDigits : ∀ c ∈ digits, c.isDigit = true) :
    Nat.toDigits 10 (Nat.ofDigitChars 10 digits first) = Nat.toDigits 10 first ++ digits := by
  induction digits generalizing first with
  | nil => simp
  | cons c digits induction =>
      obtain ⟨isDigit, areDigits⟩ := List.forall_mem_cons.mp areDigits
      obtain ⟨sameChar, small⟩ := digitChar_of_isDigit isDigit
      have larger : 0 < 10 * first + (c.toNat - '0'.toNat) := by omega
      rw [Nat.ofDigitChars_cons, induction larger areDigits,
        ← Nat.toDigits_append_toDigits (by omega) positive small, Nat.toDigits_of_lt_base small,
        sameChar, List.append_assoc]
      rfl

/-- Digits without a leading zero are those of the number that they write. -/
theorem toDigits_ofDigitChars_cons {c : Char} {digits : List Char} (notZero : c ≠ '0')
    (areDigits : ∀ digit ∈ c :: digits, digit.isDigit = true) :
    Nat.toDigits 10 (Nat.ofDigitChars 10 (c :: digits) 0) = c :: digits := by
  obtain ⟨isDigit, areDigits⟩ := List.forall_mem_cons.mp areDigits
  obtain ⟨sameChar, small⟩ := digitChar_of_isDigit isDigit
  have positive : 0 < c.toNat - '0'.toNat := by
    refine Nat.pos_of_ne_zero fun zero => notZero ?_
    rw [← sameChar, zero]
    rfl
  rw [Nat.ofDigitChars_cons, Nat.mul_zero, Nat.zero_add,
    toDigits_ofDigitChars positive areDigits, Nat.toDigits_of_lt_base small, sameChar]
  rfl

theorem ofDigitChars_lt {digits : List Char} (areDigits : ∀ c ∈ digits, c.isDigit = true) :
    Nat.ofDigitChars 10 digits 0 < 10 ^ digits.length := by
  induction digits with
  | nil => simp
  | cons c rest induction =>
      obtain ⟨isDigit, areDigits⟩ := List.forall_mem_cons.mp areDigits
      have small := induction areDigits
      have bound : c.toNat - '0'.toNat ≤ 9 := Nat.le_of_lt_succ (digitChar_of_isDigit isDigit).2
      rw [Nat.ofDigitChars_cons, Nat.ofDigitChars_eq_ofDigitChars_zero, List.length_cons, pow_succ]
      nlinarith

/-! ## Zeros -/

theorem isDigit_of_mem_zeros {zeros : Nat} {c : Char} (present : c ∈ List.replicate zeros '0') :
    c.isDigit = true := by
  obtain rfl := List.eq_of_mem_replicate present
  rfl

theorem ofDigitChars_append_zeros (digits : List Char) (zeros : Nat) :
    Nat.ofDigitChars 10 (digits ++ List.replicate zeros '0') 0 =
      Nat.ofDigitChars 10 digits 0 * 10 ^ zeros := by
  rw [Nat.ofDigitChars_append, Nat.ofDigitChars_replicate_zero, mul_comm]

theorem ofDigitChars_zeros_append (digits : List Char) (zeros : Nat) :
    Nat.ofDigitChars 10 (List.replicate zeros '0' ++ digits) 0 = Nat.ofDigitChars 10 digits 0 := by
  rw [Nat.ofDigitChars_append, Nat.ofDigitChars_replicate_zero, mul_zero]

/-- The zeros in front are dropped. -/
theorem eq_zeros_append_dropWhile (digits : List Char) :
    digits = List.replicate (digits.length - (digits.dropWhile (· == '0')).length) '0' ++
      digits.dropWhile (· == '0') := by
  have dropped : ∀ c ∈ digits.takeWhile (· == '0'), c = '0' := by
    intro c present
    exact beq_iff_eq.mp (List.all_eq_true.mp List.all_takeWhile c present)
  have parts : digits.takeWhile (· == '0') ++ digits.dropWhile (· == '0') = digits :=
    List.takeWhile_append_dropWhile
  have length : (digits.takeWhile (· == '0')).length =
      digits.length - (digits.dropWhile (· == '0')).length := by
    have lengths := congrArg List.length parts
    rw [List.length_append] at lengths
    omega
  rw [← length, ← List.eq_replicate_of_mem dropped, parts]

/-- The zeros at the end are dropped. -/
theorem exists_eq_append_zeros (digits : List Char) :
    ∃ zeros,
      digits = (digits.reverse.dropWhile (· == '0')).reverse ++ List.replicate zeros '0' := by
  have reversed := congrArg List.reverse (eq_zeros_append_dropWhile digits.reverse)
  rw [List.reverse_reverse, List.reverse_append, List.reverse_replicate] at reversed
  exact ⟨_, reversed⟩

theorem head?_dropWhile_zeros (digits : List Char) :
    (digits.dropWhile (· == '0')).head? ≠ some '0' := by
  intro isZero
  have notZero := List.head?_dropWhile_not (· == '0') digits
  rw [isZero] at notZero
  cases notZero

end TreeQuery.Numeric
