import TreeQuery.Proofs.Number.Scanner

/-!
# The grammar of decimals

A decimal is digits with an optional point and an optional power of ten. The grammar assigns to each
its exact value, and what is read from a decimal is exactly that value.
-/

namespace TreeQuery.Numeric

/-! ## Grammar and values -/

/-- A sign that may be left out, and what follows it. -/
inductive Signed : List Char → Bool → List Char → Prop
  | plain (body : List Char) : Signed body false body
  | plus (body : List Char) : Signed ('+' :: body) false body
  | minus (body : List Char) : Signed ('-' :: body) true body

/-- One digit or more. -/
def AreDigits (text : List Char) : Prop :=
  text ≠ [] ∧ ∀ c ∈ text, c.isDigit = true

/-- A power of ten that may be left out. -/
inductive Exponent : List Char → Int → Prop
  | absent : Exponent [] 0
  | present {mark : Char} {signed digits : List Char} {negative : Bool} (isMark : mark ∈ ['e', 'E'])
      (sign : Signed signed negative digits) (areDigits : AreDigits digits) :
      Exponent (mark :: signed)
        (if negative then -Nat.ofDigitChars 10 digits 0 else Nat.ofDigitChars 10 digits 0)

/-- A decimal without a sign, and its exact value. -/
inductive DecimalLiteral : List Char → ℚ → Prop
  | whole {digits tail : List Char} {exponent : Int} (areDigits : AreDigits digits)
      (power : Exponent tail exponent) :
      DecimalLiteral (digits ++ tail) (Nat.ofDigitChars 10 digits 0 * 10 ^ exponent)
  | pointed {digits fraction tail : List Char} {exponent : Int} (areDigits : AreDigits digits)
      (areFraction : fraction = [] ∨ AreDigits fraction) (power : Exponent tail exponent) :
      DecimalLiteral (digits ++ '.' :: (fraction ++ tail))
        ((Nat.ofDigitChars 10 digits 0 + Nat.ofDigitChars 10 fraction 0 / 10 ^ fraction.length) *
          10 ^ exponent)
  | fractional {fraction tail : List Char} {exponent : Int} (areFraction : AreDigits fraction)
      (power : Exponent tail exponent) :
      DecimalLiteral ('.' :: (fraction ++ tail))
        (Nat.ofDigitChars 10 fraction 0 / 10 ^ fraction.length * 10 ^ exponent)

/-! ## Decimals are read by the grammar -/

theorem areDigits_singleton {c : Char} (isDigit : c.isDigit = true) : AreDigits [c] :=
  ⟨List.cons_ne_nil c [], List.forall_mem_singleton.mpr isDigit⟩

theorem signed_splitSign (text : List Char) :
    Signed text (splitSign text).1 (splitSign text).2 := by
  unfold splitSign
  split
  · exact .minus _
  · exact .plus _
  · exact .plain _

/-- A sign is split off where what follows it does not begin with another. -/
theorem splitSign_of_signed {text body : List Char} {negative : Bool}
    (sign : Signed text negative body) (noSign : ∀ c ∈ body.head?, c ≠ '+' ∧ c ≠ '-') :
    splitSign text = (negative, body) := by
  cases sign with
  | plus => rfl
  | minus => rfl
  | plain => exact splitSign_eq_self noSign

theorem exponent?_eq_some_iff {tail : List Char} {exponent : Int} :
    exponent? tail = some exponent ↔ Exponent tail exponent := by
  constructor
  · intro read
    cases tail with
    | nil =>
        obtain rfl := Option.some.inj read
        exact .absent
    | cons mark rest =>
        have sign := signed_splitSign rest
        simp only [exponent?] at read
        split at read
        · rename_i accepted
          obtain ⟨isMark, nonempty, allDigits⟩ := accepted
          obtain rfl := Option.some.inj read
          exact .present (by simpa using isMark) sign ⟨nonempty, List.all_eq_true.mp allDigits⟩
        · cases read
  · intro power
    cases power with
    | absent => rfl
    | @present mark signed digits negative isMark sign areDigits =>
        have split := splitSign_of_signed sign (noSign_of_digits areDigits.2)
        have accepted : (mark = 'e' ∨ mark = 'E') ∧ digits ≠ [] ∧ digits.all Char.isDigit = true :=
          ⟨by simpa using isMark, areDigits.1, List.all_eq_true.mpr areDigits.2⟩
        simp only [exponent?, split]
        rw [if_pos accepted]

/-- The digits on both sides of a point as one number. -/
theorem ofDigitChars_append_mul_zpow (digits fraction : List Char) (exponent : Int) :
    (Nat.ofDigitChars 10 (digits ++ fraction) 0 : ℚ) * 10 ^ (exponent - fraction.length) =
      (Nat.ofDigitChars 10 digits 0 + Nat.ofDigitChars 10 fraction 0 / 10 ^ fraction.length) *
        10 ^ exponent := by
  rw [Nat.ofDigitChars_append, Nat.ofDigitChars_eq_ofDigitChars_zero,
    zpow_sub₀ (by norm_num), zpow_natCast]
  push_cast
  field_simp

theorem not_isDigit_head_of_exponent {tail : List Char} {exponent : Int}
    (power : Exponent tail exponent) : ∀ c ∈ tail.head?, c.isDigit = false ∧ c ≠ '.' := by
  intro c atHead
  cases power with
  | absent => cases atHead
  | present isMark _ _ =>
      obtain rfl := Option.mem_some.mp atHead
      simp only [List.mem_cons, List.not_mem_nil, or_false] at isMark
      rcases isMark with rfl | rfl <;> decide

/-- A decimal of the grammar is read with its exact value. -/
theorem decimal?_of_literal {body : List Char} {q : ℚ} (literal : DecimalLiteral body q) :
    ∃ (digits : Nat) (exponent : Int), decimal? body = some (digits, exponent) ∧
      q = digits * 10 ^ exponent := by
  cases literal with
  | whole areDigits power =>
      have read := decimal?_whole _ _ areDigits.2 areDigits.1 (not_isDigit_head_of_exponent power)
      rw [exponent?_eq_some_iff.mpr power] at read
      exact ⟨_, _, read, rfl⟩
  | @pointed _ fraction _ _ areDigits areFraction power =>
      have inFraction : ∀ c ∈ fraction, c.isDigit = true := by
        rcases areFraction with rfl | areFraction
        · exact nofun
        · exact areFraction.2
      have read := decimal?_fraction _ _ _ areDigits.2 (Or.inl areDigits.1) inFraction
        fun c atHead => (not_isDigit_head_of_exponent power c atHead).1
      rw [exponent?_eq_some_iff.mpr power] at read
      exact ⟨_, _, read, (ofDigitChars_append_mul_zpow _ _ _).symm⟩
  | @fractional fraction _ exponent areFraction power =>
      have read := decimal?_fraction [] _ _ nofun (Or.inr areFraction.1) areFraction.2
        fun c atHead => (not_isDigit_head_of_exponent power c atHead).1
      rw [exponent?_eq_some_iff.mpr power] at read
      have value := ofDigitChars_append_mul_zpow [] fraction exponent
      rw [Nat.ofDigitChars_nil, Nat.cast_zero, zero_add] at value
      exact ⟨_, _, read, value.symm⟩

/-- A decimal has one exact value. -/
theorem value_of_literal {body : List Char} {q : ℚ} (literal : DecimalLiteral body q)
    {digits : Nat} {exponent : Int} (read : decimal? body = some (digits, exponent)) :
    q = digits * 10 ^ exponent := by
  obtain ⟨_, _, sameRead, value⟩ := decimal?_of_literal literal
  rw [read] at sameRead
  obtain ⟨rfl, rfl⟩ := Prod.mk.inj (Option.some.inj sameRead)
  exact value

/-- Digits around a point, not both missing, are a decimal of the grammar. -/
theorem literal_of_pointed {digits fraction tail : List Char} {exponent : Int}
    (areDigits : ∀ c ∈ digits, c.isDigit = true) (areFraction : ∀ c ∈ fraction, c.isDigit = true)
    (someDigit : ¬ (digits = [] ∧ fraction = [])) (power : Exponent tail exponent) :
    DecimalLiteral (digits ++ '.' :: (fraction ++ tail))
      (Nat.ofDigitChars 10 (digits ++ fraction) 0 * 10 ^ (exponent - fraction.length)) := by
  rw [ofDigitChars_append_mul_zpow]
  by_cases noDigits : digits = []
  · have fractional : AreDigits fraction :=
      ⟨fun noFraction => someDigit ⟨noDigits, noFraction⟩, areFraction⟩
    rw [noDigits, Nat.ofDigitChars_nil, Nat.cast_zero, zero_add]
    exact .fractional fractional power
  · refine .pointed ⟨noDigits, areDigits⟩ ?_ power
    exact or_iff_not_imp_left.mpr fun nonempty => ⟨nonempty, areFraction⟩

/-- What is read as a decimal is one of the grammar. -/
theorem literal_of_decimal? {body : List Char} {digits : Nat} {exponent : Int}
    (read : decimal? body = some (digits, exponent)) :
    DecimalLiteral body (digits * 10 ^ exponent) := by
  have parts : ∀ text : List Char,
      text = text.takeWhile Char.isDigit ++ text.dropWhile Char.isDigit :=
    fun _ => List.takeWhile_append_dropWhile.symm
  have areDigits := isDigit_of_mem_takeWhile body
  rw [parts body]
  unfold decimal? at read
  simp only [List.span_eq_takeWhile_dropWhile] at read
  generalize body.takeWhile Char.isDigit = whole at *
  generalize body.dropWhile Char.isDigit = rest at *
  split at read
  · rename_i after
    rw [parts after]
    split at read
    · cases read
    · rename_i someDigit
      obtain ⟨power, isPower, same⟩ := Option.map_eq_some_iff.mp read
      obtain ⟨rfl, rfl⟩ := Prod.mk.inj same
      exact literal_of_pointed areDigits (isDigit_of_mem_takeWhile after) (by simpa using someDigit)
        (exponent?_eq_some_iff.mp isPower)
  · split at read
    · cases read
    · rename_i someDigit
      obtain ⟨power, isPower, same⟩ := Option.map_eq_some_iff.mp read
      obtain ⟨rfl, rfl⟩ := Prod.mk.inj same
      have nonempty : whole ≠ [] := by simpa using someDigit
      rw [List.append_nil, List.length_nil, Nat.cast_zero, sub_zero]
      exact .whole ⟨nonempty, areDigits⟩ (exponent?_eq_some_iff.mp isPower)

end TreeQuery.Numeric
