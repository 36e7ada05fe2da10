import TreeQuery.Json.Printer
import TreeQuery.Json.Reader
import TreeQuery.Proofs.Number.RoundTrip

/-!
# What JSON text keeps

The text of a string is read back as the string, and reading stops right behind its closing quote.
The text of a finite double reads back as the double, signs of zeros included. So neither loses
anything: different strings, and different finite doubles, have different texts.
-/

namespace TreeQuery.Json

/-! ## Strings -/

section Reading

variable {offset : Nat} {taken rest : List Char}

theorem readStringFrom_letter {letter c : Char} (stands : letterEscape? letter = some c) :
    readStringFrom offset taken ('\\' :: letter :: rest) =
      readStringFrom (offset + 2) (c :: taken) rest := by
  have notUnit : letter ≠ 'u' := by
    rintro rfl
    cases stands
  rw [readStringFrom]
  · rw [stands]
  all_goals simp_all

theorem readStringFrom_unit {a b c d : Char} {code : Nat} (unit : hexUnit? a b c d = some code)
    (small : code < 0xd800) :
    readStringFrom offset taken ('\\' :: 'u' :: a :: b :: c :: d :: rest) =
      readStringFrom (offset + 6) (Char.ofNat code :: taken) rest := by
  have notLow : isLowSurrogate code = false := by
    simp [isLowSurrogate]
    omega
  have notHigh : isHighSurrogate code = false := by
    simp [isHighSurrogate]
    omega
  rw [readStringFrom]
  simp [unit, notLow, notHigh]

theorem readStringFrom_plain {c : Char} (noQuote : c ≠ '"') (noBackslash : c ≠ '\\')
    (shown : 0x20 ≤ c.toNat) :
    readStringFrom offset taken (c :: rest) =
      readStringFrom (offset + c.utf8Size) (c :: taken) rest := by
  rw [readStringFrom]
  · rw [if_neg (Nat.not_lt.mpr shown)]
  all_goals simp_all

end Reading

theorem hexValue?_digitChar {digit : Nat} (small : digit < 16) :
    hexValue? digit.digitChar = some digit := by
  have table : ∀ digit ∈ List.range 16, hexValue? digit.digitChar = some digit := by decide
  exact table digit (List.mem_range.mpr small)

/-- A character is escaped by a letter or by its code in hexadecimal, or stands for itself. -/
theorem escape_cases (c : Char) :
    (∃ letter, escape c = ['\\', letter] ∧ letterEscape? letter = some c) ∨
    (∃ a b, escape c = ['\\', 'u', '0', '0', a, b] ∧ hexUnit? '0' '0' a b = some c.toNat ∧
      c.toNat < 0x20) ∨
    (escape c = [c] ∧ c ≠ '"' ∧ c ≠ '\\' ∧ 0x20 ≤ c.toNat) := by
  have unit : ∀ high low, high < 2 → low < 16 →
      hexUnit? '0' '0' high.digitChar low.digitChar = some (high * 16 + low) := by
    intro high low highSmall lowSmall
    have zero : hexValue? '0' = some 0 := rfl
    rw [hexUnit?, hexValue?_digitChar (by omega), hexValue?_digitChar lowSmall, zero]
    simp
  by_cases letter : c ∈ ['"', '\\', '\x08', '\x0c', '\n', '\r', '\t']
  · simp only [List.mem_cons, List.not_mem_nil, or_false] at letter
    rcases letter with rfl | rfl | rfl | rfl | rfl | rfl | rfl <;> exact .inl ⟨_, rfl, rfl⟩
  · simp only [List.mem_cons, List.not_mem_nil, or_false, not_or] at letter
    simp only [escape, letter, if_false]
    by_cases small : c.toNat < 0x10
    · have digits : Text.hexadecimal c.toNat = [c.toNat.digitChar] :=
        Nat.toDigits_of_lt_base small
      have value := unit 0 c.toNat (by omega) small
      rw [Nat.zero_mul, Nat.zero_add] at value
      rw [if_pos small, digits]
      exact .inr (.inl ⟨'0', _, rfl, value, by omega⟩)
    · by_cases control : c.toNat < 0x20
      · have digits : Text.hexadecimal c.toNat = ['1', (c.toNat % 16).digitChar] := by
          have quotient : c.toNat / 16 = 1 := by omega
          rw [Text.hexadecimal, Nat.toDigits_of_base_le (by omega) (by omega), quotient]
          rfl
        have value := unit 1 (c.toNat % 16) (by omega) (by omega)
        rw [show 1 * 16 + c.toNat % 16 = c.toNat by omega] at value
        rw [if_neg small, if_pos control, digits]
        exact .inr (.inl ⟨'1', _, rfl, value, control⟩)
      · rw [if_neg small, if_neg control]
        exact .inr (.inr ⟨rfl, letter.1, letter.2.1, by omega⟩)

/-- A reader takes an escaped character as the character. -/
theorem readStringFrom_escape (offset : Nat) (taken rest : List Char) (c : Char) :
    ∃ behind, readStringFrom offset taken (escape c ++ rest) =
      readStringFrom behind (c :: taken) rest := by
  rcases escape_cases c with ⟨letter, written, stands⟩ | ⟨a, b, written, unit, control⟩ |
    ⟨written, noQuote, noBackslash, shown⟩
  · rw [written]
    exact ⟨_, readStringFrom_letter stands⟩
  · have read : readStringFrom offset taken ('\\' :: 'u' :: '0' :: '0' :: a :: b :: rest) = _ :=
      readStringFrom_unit unit (by omega)
    rw [Char.ofNat_toNat] at read
    rw [written]
    exact ⟨_, read⟩
  · rw [written]
    exact ⟨_, readStringFrom_plain noQuote noBackslash shown⟩

/-- A reader takes escaped characters one by one, up to the closing quote. -/
theorem readStringFrom_flatMap_escape (offset : Nat) (taken chars rest : List Char) :
    ∃ behind, readStringFrom offset taken (chars.flatMap escape ++ '"' :: rest) =
      .ok (String.ofList (taken.reverse ++ chars), ⟨rest, behind⟩) := by
  induction chars generalizing offset taken with
  | nil =>
      refine ⟨offset + 1, ?_⟩
      simp [readStringFrom]
  | cons c chars induction =>
      obtain ⟨middle, step⟩ :=
        readStringFrom_escape offset taken (chars.flatMap escape ++ '"' :: rest) c
      obtain ⟨behind, run⟩ := induction middle (c :: taken)
      refine ⟨behind, ?_⟩
      rw [List.flatMap_cons, List.append_assoc, step, run]
      simp

/-- Texts that begin with strings are equal only if the strings are, and what follows them. -/
theorem stringText_append_inj {value other : String} {rest otherRest : List Char}
    (same : stringText value ++ rest = stringText other ++ otherRest) :
    value = other ∧ rest = otherRest := by
  have chars : value.toList.flatMap escape ++ '"' :: rest =
      other.toList.flatMap escape ++ '"' :: otherRest := by
    simpa [stringText] using same
  obtain ⟨behind, read⟩ := readStringFrom_flatMap_escape 0 [] value.toList rest
  obtain ⟨otherBehind, otherRead⟩ := readStringFrom_flatMap_escape 0 [] other.toList otherRest
  rw [chars, otherRead] at read
  obtain ⟨sameValue, sameCursor⟩ := Prod.mk.inj (Except.ok.inj read)
  exact ⟨by simpa using sameValue.symm, (congrArg Cursor.rest sameCursor).symm⟩

theorem stringText_inj {value other : String} (same : stringText value = stringText other) :
    value = other :=
  (stringText_append_inj (congrArg (· ++ []) same)).1

/-! ## Doubles -/

theorem ofText_doubleText_zero (negative : Bool) :
    Numeric.ofText (String.ofList (doubleText (.zero negative))) = .zero negative := by
  cases negative <;> decide

/-- The text of a finite double reads back as the double, also if it is a zero. -/
theorem ofText_doubleText {x : Double} (finite : x.isFinite = true) :
    Numeric.ofText (String.ofList (doubleText x)) = x := by
  cases zero : x.isZero with
  | true =>
      obtain ⟨negative, rfl⟩ := Double.eq_zero_of_isZero zero
      exact ofText_doubleText_zero negative
  | false =>
      cases x with
      | nan | infinity => cases finite
      | finite negative significand exponent canonical =>
          rw [Double.isZero_finite, decide_eq_false_iff_not] at zero
          exact Numeric.ofText_finite layout negative canonical zero

theorem doubleText_inj {x y : Double} (finite : x.isFinite = true) (otherFinite : y.isFinite = true)
    (same : doubleText x = doubleText y) : x = y := by
  rw [← ofText_doubleText finite, same, ofText_doubleText otherFinite]

/-- The text of a finite double does not begin like that of a string. -/
theorem head?_doubleText_ne {x : Double} (finite : x.isFinite = true) :
    (doubleText x).head? ≠ some '"' := by
  cases x with
  | nan | infinity => cases finite
  | finite negative significand exponent canonical =>
      rw [doubleText, Layout.finite]
      by_cases zero : significand = 0
      · rw [if_pos zero]
        cases negative <;> decide
      · obtain ⟨proper, -⟩ := Decimal.shortest_reads_back canonical zero
        obtain ⟨first, rest, written, isDigit⟩ := Decimal.magnitude_head layout proper
        rw [if_neg zero, written]
        cases negative with
        | true => simp
        | false =>
            rintro ⟨⟩
            cases isDigit

end TreeQuery.Json
