import Mathlib.Data.List.TakeWhile
import TreeQuery.Proofs.Number.Rounding
import TreeQuery.Static.Numeric

/-!
# The scanner of decimals

The scanner goes through a text with three flags. Whichever of them are set, it accepts exactly the
texts that go on as a decimal does from there. So a text that it accepts is a decimal as a whole,
and reading it as a double sees neither a second sign nor a name.
-/

namespace TreeQuery.Numeric

/-! ## Numerals -/

/-- The characters that numerals are made of. -/
def IsNumeral (c : Char) : Prop :=
  c.isDigit = true ∨ c ∈ ['.', 'e', '+', '-']

theorem isBlank_of_isNumeral {c : Char} (numeral : IsNumeral c) : Text.isBlank c = false := by
  rcases numeral with digit | mark
  · have bounds : 48 ≤ c.toNat ∧ c.toNat ≤ 57 := Char.isDigit_iff_toNat.mp digit
    simp [Text.isBlank]
    omega
  · simp only [List.mem_cons, List.not_mem_nil, or_false] at mark
    rcases mark with rfl | rfl | rfl | rfl <;> rfl

theorem trim_eq_self {text : List Char} (noBlanks : ∀ c ∈ text, Text.isBlank c = false) :
    Text.trim text = text := by
  have keeps : ∀ text : List Char, (∀ c ∈ text, Text.isBlank c = false) →
      text.dropWhile Text.isBlank = text := by
    intro text noBlanks
    cases text with
    | nil => rfl
    | cons c rest => simp [noBlanks c List.mem_cons_self]
  rw [Text.trim, keeps text noBlanks, keeps text.reverse, List.reverse_reverse]
  intro c present
  exact noBlanks c (List.mem_reverse.mp present)

theorem baseMark?_eq_none {text : List Char} (numeral : ∀ c ∈ text, IsNumeral c) :
    baseMark? text = none := by
  have noMark : ∀ mark ∈ ['x', 'X', 'o', 'O', 'b', 'B'], mark ∉ text := by
    intro mark isMark present
    have marks : ∀ mark ∈ ['x', 'X', 'o', 'O', 'b', 'B'], ¬ IsNumeral mark := by
      simp [IsNumeral]
    exact marks mark isMark (numeral mark present)
  unfold baseMark?
  split
  case h_7 => rfl
  all_goals simp at noMark

/-! ## Decimals -/

theorem span_digits {digits rest : List Char} (areDigits : ∀ c ∈ digits, c.isDigit = true)
    (stops : ∀ c ∈ rest.head?, c.isDigit = false) :
    (digits ++ rest).span Char.isDigit = (digits, rest) := by
  rw [List.span_eq_takeWhile_dropWhile, List.takeWhile_append_of_pos areDigits,
    List.dropWhile_append_of_pos areDigits]
  cases rest with
  | nil => simp
  | cons c rest =>
      have noDigit := stops c rfl
      simp [noDigit]

/-- A numeral without a point. -/
theorem decimal?_whole (whole tail : List Char) (areDigits : ∀ c ∈ whole, c.isDigit = true)
    (nonempty : whole ≠ []) (stops : ∀ c ∈ tail.head?, c.isDigit = false ∧ c ≠ '.') :
    decimal? (whole ++ tail) =
      (exponent? tail).map fun exponent => (Nat.ofDigitChars 10 whole 0, exponent) := by
  have span := span_digits areDigits fun c atHead => (stops c atHead).1
  have noPoint : ∀ rest, tail ≠ '.' :: rest := by
    rintro rest rfl
    exact (stops '.' rfl).2 rfl
  unfold decimal?
  simp only [span]
  simp [nonempty]

/-- A numeral with a point. -/
theorem decimal?_fraction (whole fraction tail : List Char)
    (areDigits : ∀ c ∈ whole, c.isDigit = true) (nonempty : whole ≠ [] ∨ fraction ≠ [])
    (areFraction : ∀ c ∈ fraction, c.isDigit = true)
    (stops : ∀ c ∈ tail.head?, c.isDigit = false) :
    decimal? (whole ++ '.' :: (fraction ++ tail)) =
      (exponent? tail).map fun exponent : Int =>
        (Nat.ofDigitChars 10 (whole ++ fraction) 0, exponent - fraction.length) := by
  have span : (whole ++ '.' :: (fraction ++ tail)).span Char.isDigit =
      (whole, '.' :: (fraction ++ tail)) :=
    span_digits areDigits (by simp)
  have someDigit : ¬ (whole = [] ∧ fraction = []) := not_and_or.mpr nonempty
  unfold decimal?
  simp only [span, span_digits areFraction stops]
  simp [someDigit]

/-! ## One state of the scanner -/

/-- What has been looked at is passed over. -/
theorem goesOn_eq_drop (seen : Seen) (taken : Nat) (text : List Char) :
    goesOn seen taken text = goesOn seen 0 (text.drop taken) := by
  induction text generalizing taken with
  | nil => simp [goesOn]
  | cons c text induction =>
      cases taken with
      | zero => rfl
      | succ taken => rw [goesOn, induction, List.drop_succ_cons]

/-- Digits before the power leave a mark. -/
theorem goesOn_digits {digits : List Char} (areDigits : ∀ c ∈ digits, c.isDigit = true)
    (digit point : Bool) (rest : List Char) :
    goesOn ⟨digit, point, false⟩ 0 (digits ++ rest) =
      goesOn ⟨digit || !digits.isEmpty, point, false⟩ 0 rest := by
  induction digits generalizing digit with
  | nil => simp
  | cons c digits induction =>
      obtain ⟨isDigit, areDigits⟩ := List.forall_mem_cons.mp areDigits
      rw [List.cons_append, goesOn, if_pos isDigit, Bool.not_false, Bool.or_true,
        induction areDigits]
      simp

/-- Behind the digits of a power nothing is accepted. -/
theorem goesOn_behind_power {digit point : Bool} {rest : List Char}
    (stops : ∀ c ∈ rest.head?, c.isDigit = false) :
    goesOn ⟨digit, point, true⟩ 0 rest = (rest.isEmpty && digit) := by
  cases rest with
  | nil => simp [goesOn]
  | cons c rest => simp [goesOn, stops c rfl]

theorem splitSign_eq_self {text : List Char} (noSign : ∀ c ∈ text.head?, c ≠ '+' ∧ c ≠ '-') :
    splitSign text = (false, text) := by
  unfold splitSign
  split
  · exact absurd rfl (noSign '-' rfl).2
  · exact absurd rfl (noSign '+' rfl).1
  · rfl

theorem noSign_of_digits {digits : List Char} (areDigits : ∀ c ∈ digits, c.isDigit = true) :
    ∀ c ∈ digits.head?, c ≠ '+' ∧ c ≠ '-' := by
  intro c atHead
  have isDigit := areDigits c (List.mem_of_mem_head? atHead)
  constructor <;> rintro rfl <;> cases isDigit

theorem drop_sign (text : List Char) :
    text.drop (if text.head? = some '+' ∨ text.head? = some '-' then 1 else 0) =
      (splitSign text).2 := by
  cases text with
  | nil => rfl
  | cons c rest =>
      by_cases sign : c = '+' ∨ c = '-'
      · rcases sign with rfl | rfl <;> rfl
      · have noSign : ∀ first ∈ (c :: rest).head?, first ≠ '+' ∧ first ≠ '-' := by
          rintro first ⟨⟩
          exact not_or.mp sign
        rw [splitSign_eq_self noSign]
        simp [sign]

theorem isDigit_of_mem_takeWhile (text : List Char) :
    ∀ c ∈ text.takeWhile Char.isDigit, c.isDigit = true :=
  fun c present => List.all_eq_true.mp List.all_takeWhile c present

theorem isDigit_head_dropWhile (text : List Char) :
    ∀ c ∈ (text.dropWhile Char.isDigit).head?, c.isDigit = false := by
  intro c atHead
  have stops := List.head?_dropWhile_not Char.isDigit text
  rw [Option.mem_def.mp atHead] at stops
  exact stops

theorem drop_length_takeWhile (text : List Char) :
    text.drop (text.takeWhile Char.isDigit).length = text.dropWhile Char.isDigit := by
  induction text with
  | nil => rfl
  | cons c text induction =>
      by_cases isDigit : c.isDigit = true
      · simp [isDigit, induction]
      · simp [isDigit]

/-- Behind the mark of a power the scanner takes a sign and digits, and then the text has to end. -/
theorem goesOn_behind_mark (point : Bool) (text : List Char) :
    (if powerLength text = 0 then false else goesOn ⟨true, point, true⟩ (powerLength text) text) =
      decide ((splitSign text).2 ≠ [] ∧ (splitSign text).2.all Char.isDigit = true) := by
  rw [goesOn_eq_drop, powerLength]
  generalize signs : (if text.head? = some '+' ∨ text.head? = some '-' then 1 else 0) = count
  have body := drop_sign text
  rw [signs] at body
  rw [body]
  generalize (splitSign text).2 = digits at body ⊢
  -- Without a digit the look-ahead fails, and with one it ends where the digits end.
  cases digits with
  | nil => simp
  | cons c rest =>
      by_cases isDigit : c.isDigit = true
      · have someDigit : ((c :: rest).takeWhile Char.isDigit).length ≠ 0 := by simp [isDigit]
        have behind : text.drop (count + ((c :: rest).takeWhile Char.isDigit).length) =
            (c :: rest).dropWhile Char.isDigit := by
          rw [← List.drop_drop, body, drop_length_takeWhile]
        rw [if_neg someDigit, if_neg (by omega), behind,
          goesOn_behind_power (isDigit_head_dropWhile _), Bool.and_true, Bool.eq_iff_iff]
        simp [List.dropWhile_eq_nil_iff]
      · simp [isDigit]

theorem isSome_exponent? {mark : Char} (isMark : mark = 'e' ∨ mark = 'E') (text : List Char) :
    (exponent? (mark :: text)).isSome =
      decide ((splitSign text).2 ≠ [] ∧ (splitSign text).2.all Char.isDigit = true) := by
  simp only [exponent?, isMark, true_and]
  split
  · rename_i accepted
    rw [decide_eq_true accepted, Option.isSome_some]
  · rename_i rejected
    rw [decide_eq_false rejected, Option.isSome_none]

/-- Once a digit is seen, the text has to end or to go on with a power. -/
theorem goesOn_behind_digits (point : Bool) {text : List Char}
    (stops : ∀ c ∈ text.head?, c.isDigit = false ∧ (c = '.' → point = true)) :
    goesOn ⟨true, point, false⟩ 0 text = (exponent? text).isSome := by
  cases text with
  | nil => rfl
  | cons c rest =>
      obtain ⟨noDigit, pointed⟩ := stops c rfl
      by_cases isPoint : c = '.'
      · subst isPoint
        simp [goesOn, exponent?, pointed rfl]
      · by_cases isMark : c = 'e' ∨ c = 'E'
        · rw [isSome_exponent? isMark, ← goesOn_behind_mark point]
          simp [goesOn, noDigit, isPoint, isMark]
        · simp [goesOn, exponent?, noDigit, isPoint, isMark]

/-- Behind the point the scanner wants a digit, unless one stands before it. -/
theorem goesOn_behind_point (digit : Bool) (text : List Char) :
    goesOn ⟨digit, true, false⟩ 0 text =
      ((digit || !(text.takeWhile Char.isDigit).isEmpty) &&
        (exponent? (text.dropWhile Char.isDigit)).isSome) := by
  have areDigits := isDigit_of_mem_takeWhile text
  have stops := isDigit_head_dropWhile text
  conv_lhs => rw [← List.takeWhile_append_dropWhile (p := Char.isDigit) (l := text)]
  rw [goesOn_digits areDigits]
  generalize text.dropWhile Char.isDigit = rest at stops ⊢
  cases some : digit || !(text.takeWhile Char.isDigit).isEmpty with
  | true =>
      have pointed : ∀ c ∈ rest.head?, c.isDigit = false ∧ (c = '.' → true = true) :=
        fun c atHead => ⟨stops c atHead, fun _ => rfl⟩
      rw [Bool.true_and, goesOn_behind_digits true pointed]
  | false =>
      cases rest with
      | nil => rfl
      | cons c rest => simp [goesOn, stops c rfl]

/-! ## All of the scanner -/

/-- The scanner accepts exactly the decimals. -/
theorem isDecimal_eq (text : List Char) : isDecimal text = (decimal? text).isSome := by
  have areDigits := isDigit_of_mem_takeWhile text
  have stops := isDigit_head_dropWhile text
  unfold decimal?
  simp only [List.span_eq_takeWhile_dropWhile]
  rw [isDecimal]
  conv_lhs => rw [← List.takeWhile_append_dropWhile (p := Char.isDigit) (l := text)]
  rw [goesOn_digits areDigits]
  generalize text.takeWhile Char.isDigit = whole at areDigits ⊢
  generalize text.dropWhile Char.isDigit = rest at stops ⊢
  split
  · rename_i after
    have pointed : goesOn ⟨false || !whole.isEmpty, false, false⟩ 0 ('.' :: after) =
        goesOn ⟨!whole.isEmpty, true, false⟩ 0 after := by simp [goesOn]
    rw [pointed, goesOn_behind_point]
    cases whole <;> cases after.takeWhile Char.isDigit <;> simp
  · rename_i noPoint
    have notPoint : ∀ c ∈ rest.head?, c ≠ '.' := by
      rintro _ atHead rfl
      obtain ⟨tail, same⟩ := List.head?_eq_some_iff.mp atHead
      exact noPoint tail same
    cases whole with
    | nil =>
        cases rest with
        | nil => rfl
        | cons c rest => simp [goesOn, stops c rfl, notPoint c rfl]
    | cons first whole =>
        have neither : ∀ c ∈ rest.head?, c.isDigit = false ∧ (c = '.' → false = true) :=
          fun c atHead => ⟨stops c atHead, fun isPoint => absurd isPoint (notPoint c atHead)⟩
        rw [List.isEmpty_cons, Bool.not_false, Bool.or_true, goesOn_behind_digits false neither]
        simp

/-- A decimal begins with a digit or a point. -/
theorem head_of_decimal? {body : List Char} {result : Nat × Int}
    (read : decimal? body = some result) :
    ∃ first rest, body = first :: rest ∧ (first.isDigit = true ∨ first = '.') := by
  cases body with
  | nil => cases read
  | cons first rest =>
      refine ⟨first, rest, rfl, ?_⟩
      by_contra neither
      obtain ⟨noDigit, noPoint⟩ := not_or.mp neither
      simp [decimal?, List.span_eq_takeWhile_dropWhile, noDigit, noPoint] at read

theorem noSign_of_decimal? {body : List Char} {result : Nat × Int}
    (read : decimal? body = some result) : ∀ c ∈ body.head?, c ≠ '+' ∧ c ≠ '-' := by
  obtain ⟨first, rest, rfl, isDigit | isPoint⟩ := head_of_decimal? read
  · rintro c ⟨⟩
    constructor <;> rintro rfl <;> cases isDigit
  · rintro c ⟨⟩
    constructor <;> rintro rfl <;> cases isPoint

/-- A decimal is no name: names begin with a letter. -/
theorem named?_of_decimal? {body : List Char} {result : Nat × Int}
    (read : decimal? body = some result) : named? body = none := by
  obtain ⟨first, rest, rfl, initial⟩ := head_of_decimal? read
  have lower : first.toLower = first := by
    rcases initial with isDigit | rfl
    · have isSmall : first.toNat ≤ 57 := (Char.isDigit_iff_toNat.mp isDigit).2
      refine dif_neg ?_
      rintro ⟨large, -⟩
      exact absurd (isSmall.trans_lt (by decide)) (not_lt.mpr large)
    · rfl
  have noLetter : first ≠ 'i' ∧ first ≠ 'n' := by
    rcases initial with isDigit | rfl
    · constructor <;> rintro rfl <;> cases isDigit
    · decide
  simp [named?, lower, noLetter]

/-- What the scanner accepts is read as the decimal that it is. -/
theorem double?_of_decimal? {body : List Char} {digits : Nat} {exponent : Int}
    (read : decimal? body = some (digits, exponent)) :
    double? body = some (.ofDecimal false digits exponent) := by
  simp only [double?, splitSign_eq_self (noSign_of_decimal? read), named?_of_decimal? read, read,
    Option.map_some]

/-- Without a base mark, a text is a sign and an infinity or a decimal. -/
theorem ofTrimmed_eq {text : List Char} (nonempty : text.isEmpty = false)
    (unmarked : baseMark? text = none) :
    ofTrimmed text =
      if (splitSign text).2 = "Infinity".toList then .infinity (splitSign text).1
      else match decimal? (splitSign text).2 with
        | some (digits, exponent) => .ofDecimal (splitSign text).1 digits exponent
        | none => .nan := by
  rw [ofTrimmed, nonempty, if_neg (by decide), unmarked]
  generalize splitSign text = split
  obtain ⟨negative, body⟩ := split
  dsimp only
  by_cases isInfinity : body = "Infinity".toList
  · rw [if_pos isInfinity, if_pos isInfinity]
  · rw [if_neg isInfinity, if_neg isInfinity, isDecimal_eq]
    cases read : decimal? body with
    | none => rfl
    | some result =>
        obtain ⟨digits, exponent⟩ := result
        rw [Option.isSome_some, if_pos rfl, double?_of_decimal? read]
        cases negative with
        | false => rfl
        | true => exact Double.neg_ofDecimal false digits exponent

end TreeQuery.Numeric
