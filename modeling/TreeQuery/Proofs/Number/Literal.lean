import TreeQuery.Proofs.Number.Nearest
import TreeQuery.Proofs.Number.RoundTrip

/-!
# Numeric literals

The texts that write a number, as a grammar beside the scanner: a text without the spaces around it
is empty, an integer behind a base mark, or a signed infinity or decimal. Everything else gives
not-a-number, and a decimal gives the rounding of the exact value that the grammar assigns to it.
-/

namespace TreeQuery

/-! ## The spaces around a literal -/

namespace Text

/-- The code points of white space and line terminators. -/
def spaces : List Nat :=
  [0x09, 0x0a, 0x0b, 0x0c, 0x0d, 0x20, 0xa0, 0x1680, 0x2000, 0x2001, 0x2002, 0x2003, 0x2004, 0x2005,
    0x2006, 0x2007, 0x2008, 0x2009, 0x200a, 0x2028, 0x2029, 0x202f, 0x205f, 0x3000, 0xfeff]

/-- `core` is the text without the spaces at either end. -/
structure IsCore (text core : List Char) : Prop where
  surrounded : ∃ before after, text = before ++ core ++ after ∧
    (∀ c ∈ before, c.toNat ∈ spaces) ∧ ∀ c ∈ after, c.toNat ∈ spaces
  starts : ∀ c ∈ core.head?, c.toNat ∉ spaces
  ends : ∀ c ∈ core.getLast?, c.toNat ∉ spaces

theorem isBlank_iff (c : Char) : isBlank c = true ↔ c.toNat ∈ spaces := by
  simp [isBlank, spaces]
  omega

theorem dropWhile_blanks {blanks rest : List Char} (allBlank : ∀ c ∈ blanks, c.toNat ∈ spaces)
    (stops : ∀ c ∈ rest.head?, c.toNat ∉ spaces) : (blanks ++ rest).dropWhile isBlank = rest := by
  rw [List.dropWhile_append_of_pos fun c present => (isBlank_iff c).mpr (allBlank c present)]
  cases rest with
  | nil => rfl
  | cons c rest =>
      have notBlank : ¬ isBlank c = true := fun blank => stops c rfl ((isBlank_iff c).mp blank)
      rw [List.dropWhile_cons_of_neg notBlank]

theorem trim_eq_of_isCore {text core : List Char} (isCore : IsCore text core) :
    trim text = core := by
  obtain ⟨⟨before, after, rfl, allBefore, allAfter⟩, starts, ends⟩ := isCore
  cases core with
  | nil =>
      have allBlank : ∀ c ∈ before ++ after, c.toNat ∈ spaces :=
        List.forall_mem_append.mpr ⟨allBefore, allAfter⟩
      have front : (before ++ after ++ []).dropWhile isBlank = [] := dropWhile_blanks allBlank nofun
      rw [List.append_nil] at front
      rw [trim, List.append_nil, front]
      rfl
  | cons c rest =>
      have front : (before ++ (c :: rest ++ after)).dropWhile isBlank = c :: rest ++ after :=
        dropWhile_blanks allBefore starts
      have back :
          (after.reverse ++ (c :: rest).reverse).dropWhile isBlank = (c :: rest).reverse := by
        refine dropWhile_blanks (fun c present => allAfter c (List.mem_reverse.mp present)) ?_
        rw [List.head?_reverse]
        exact ends
      rw [trim, List.append_assoc, front, List.reverse_append, back, List.reverse_reverse]

theorem not_space_of_dropWhile (text : List Char) :
    ∀ c ∈ (text.dropWhile isBlank).head?, c.toNat ∉ spaces := by
  intro c atHead space
  have notBlank := List.head?_dropWhile_not isBlank text
  rw [Option.mem_def.mp atHead] at notBlank
  simp [(isBlank_iff c).mpr space] at notBlank

theorem space_of_mem_takeWhile {text : List Char} :
    ∀ c ∈ text.takeWhile isBlank, c.toNat ∈ spaces := by
  intro c present
  exact (isBlank_iff c).mp (List.all_eq_true.mp List.all_takeWhile c present)

theorem isCore_trim (text : List Char) : IsCore text (trim text) := by
  have front : text = text.takeWhile isBlank ++ text.dropWhile isBlank :=
    List.takeWhile_append_dropWhile.symm
  have notAtFront := not_space_of_dropWhile text
  rw [trim]
  generalize text.dropWhile isBlank = rest at *
  have back : rest = (rest.reverse.dropWhile isBlank).reverse ++
      (rest.reverse.takeWhile isBlank).reverse := by
    rw [← List.reverse_append, List.takeWhile_append_dropWhile, List.reverse_reverse]
  refine ⟨⟨text.takeWhile isBlank, (rest.reverse.takeWhile isBlank).reverse, ?_,
    space_of_mem_takeWhile, ?_⟩, ?_, ?_⟩
  · rw [List.append_assoc, ← back]
    exact front
  · intro c present
    exact space_of_mem_takeWhile c (List.mem_reverse.mp present)
  · intro c atHead
    apply notAtFront
    rw [back]
    exact List.mem_head?_append_of_mem_head? atHead
  · rw [List.getLast?_reverse]
    exact not_space_of_dropWhile rest.reverse

theorem isCore_iff {text core : List Char} : IsCore text core ↔ core = trim text := by
  constructor
  · exact fun isCore => (trim_eq_of_isCore isCore).symm
  · rintro rfl
    exact isCore_trim text

end Text

/-! ## Sums and products that are numbers -/

namespace Double

theorem isNaN_ofScaled (negative : Bool) (significand : Nat) (exponent : Int) :
    (ofScaled negative significand exponent).isNaN = false :=
  (isRounding_ofRatio negative _ (by positivity)).isNumber

theorem isNaN_mul {x y : Double} (isNumber : x.isNaN = false) (finite : y.isFinite = true)
    (nonzero : y.isZero = false) : (x.mul y).isNaN = false := by
  cases y with
  | nan => cases finite
  | infinity _ => cases finite
  | finite t n f canonical =>
      rw [isZero_finite, decide_eq_false_iff_not] at nonzero
      cases x with
      | nan => cases isNumber
      | infinity s => simp [mul, nonzero, isNaN]
      | finite s m e _ => exact isNaN_ofScaled _ _ _

theorem isNaN_add {x y : Double} (isNumber : x.isNaN = false) (finite : y.isFinite = true) :
    (x.add y).isNaN = false := by
  cases y with
  | nan => cases finite
  | infinity _ => cases finite
  | finite t n f canonical =>
      cases x with
      | nan => cases isNumber
      | infinity s => rfl
      | finite s m e _ =>
          simp only [add]
          split
          · rfl
          · exact isNaN_ofScaled _ _ _

/-- The smallest natural numbers, among them the bases and their digits, are finite. -/
theorem isFinite_ofNat {n : Nat} (small : n < 17) :
    (ofNat n).isFinite = true ∧ (ofNat n).isZero = decide (n = 0) := by
  have all : ∀ n < 17, (ofNat n).isFinite = true ∧
      (ofNat n).isZero = decide (n = 0) := by decide +kernel
  exact all n small

end Double

namespace Numeric

/-! ## The grammar -/

/-- The letters that mark a base behind a zero, with the digits of the base. -/
def bases : List (Char × List Char) :=
  [('x', "0123456789abcdefABCDEF".toList), ('X', "0123456789abcdefABCDEF".toList),
    ('o', "01234567".toList), ('O', "01234567".toList), ('b', "01".toList), ('B', "01".toList)]

/-- The texts without surrounding spaces that write a number. -/
inductive NumericLiteral : List Char → Prop
  | empty : NumericLiteral []
  | based {mark : Char} {allowed digits : List Char} (isBase : (mark, allowed) ∈ bases)
      (nonempty : digits ≠ []) (areAllowed : ∀ c ∈ digits, c ∈ allowed) :
      NumericLiteral ('0' :: mark :: digits)
  | infinity {text : List Char} {negative : Bool}
      (sign : Signed text negative "Infinity".toList) : NumericLiteral text
  | decimal {text body : List Char} {negative : Bool} {q : ℚ} (sign : Signed text negative body)
      (literal : DecimalLiteral body q) : NumericLiteral text

/-! ## Integers behind a base mark -/

theorem digit?_isSome_iff (base : Nat) (c : Char) :
    (digit? base c).isSome = true ↔
      (48 ≤ c.toNat ∧ c.toNat ≤ 57 ∧ c.toNat - 48 < base) ∨
        (97 ≤ c.toNat ∧ c.toNat ≤ 122 ∧ c.toNat - 87 < base) ∨
          (65 ≤ c.toNat ∧ c.toNat ≤ 90 ∧ c.toNat - 55 < base) := by
  have le (a b : Char) : a ≤ b ↔ a.toNat ≤ b.toNat := Iff.rfl
  have kept (value : Nat) :
      (if value < base then some value else none).isSome = true ↔ value < base := by
    split <;> simp [*]
  simp only [digit?, le, Char.reduceToNat]
  split_ifs <;> simp only [Option.bind_some, Option.bind_none, kept, Option.isSome_none,
    Bool.false_eq_true, false_iff] <;> omega

/-- The digits of a base are the characters that have a value in it. -/
def AreDigitsOf (base : Nat) (allowed : List Char) : Prop :=
  ∀ c, (digit? base c).isSome = true ↔ c ∈ allowed

theorem areDigitsOf_bases : AreDigitsOf 16 "0123456789abcdefABCDEF".toList ∧
    AreDigitsOf 8 "01234567".toList ∧ AreDigitsOf 2 "01".toList := by
  have byCode (allowed : List Char) (c : Char) :
      c ∈ allowed ↔ c.toNat ∈ allowed.map Char.toNat :=
    (List.mem_map_of_injective fun _ _ => Char.toNat_inj.mp).symm
  refine ⟨fun c => ?_, fun c => ?_, fun c => ?_⟩
  all_goals
    rw [digit?_isSome_iff, byCode]
    simp
    omega

theorem lt_base_of_digit? {base digit : Nat} {c : Char} (read : digit? base c = some digit) :
    digit < base := by
  obtain ⟨value, -, kept⟩ := Option.bind_eq_some_iff.mp read
  split at kept
  · rename_i below
    obtain rfl := Option.some.inj kept
    exact below
  · cases kept

section Base

variable {base : Nat} (positive : base ≠ 0) (small : base < 17)

include positive small

/-- Adding a digit to a number gives a number. -/
theorem isNaN_step {sum : Double} {digit : Nat} (isNumber : sum.isNaN = false)
    (below : digit < base) :
    ((sum.mul (.ofNat base)).add (.ofNat digit)).isNaN = false := by
  obtain ⟨baseFinite, baseZero⟩ := Double.isFinite_ofNat small
  obtain ⟨digitFinite, -⟩ := Double.isFinite_ofNat (below.trans small)
  have nonzero : (Double.ofNat base).isZero = false := by rw [baseZero, decide_eq_false positive]
  exact Double.isNaN_add (Double.isNaN_mul isNumber baseFinite nonzero) digitFinite

/-- Digits add up to a number exactly if each has a value. -/
theorem isNaN_accumulate_iff (digits : List Char) {sum : Double} (isNumber : sum.isNaN = false) :
    (accumulate base sum digits).isNaN = false ↔ ∀ c ∈ digits, (digit? base c).isSome = true := by
  induction digits generalizing sum with
  | nil => simpa [accumulate] using isNumber
  | cons c rest induction =>
      cases read : digit? base c with
      | none => simp [accumulate, read, Double.isNaN]
      | some digit =>
          have next := isNaN_step positive small isNumber (lt_base_of_digit? read)
          simp [accumulate, read, induction next]

theorem isNaN_inBase_iff {allowed : List Char} (areDigits : AreDigitsOf base allowed)
    (digits : List Char) :
    (inBase base digits).isNaN = false ↔ digits ≠ [] ∧ ∀ c ∈ digits, c ∈ allowed := by
  rw [inBase]
  split
  · rename_i empty
    simp [List.isEmpty_iff.mp empty, Double.isNaN]
  · rename_i notEmpty
    have nonempty : digits ≠ [] := fun empty => notEmpty (List.isEmpty_iff.mpr empty)
    rw [isNaN_accumulate_iff positive small digits rfl, and_iff_right nonempty]
    exact forall₂_congr fun c _ => areDigits c

end Base

theorem baseMark?_of_mark {mark : Char} {allowed : List Char} (isBase : (mark, allowed) ∈ bases)
    (digits : List Char) :
    ∃ base, baseMark? ('0' :: mark :: digits) = some (base, digits) ∧ base ≠ 0 ∧ base < 17 ∧
      AreDigitsOf base allowed := by
  obtain ⟨hexadecimal, octal, binary⟩ := areDigitsOf_bases
  simp only [bases, List.mem_cons, Prod.mk.injEq, List.not_mem_nil, or_false] at isBase
  rcases isBase with ⟨rfl, rfl⟩ | ⟨rfl, rfl⟩ | ⟨rfl, rfl⟩ | ⟨rfl, rfl⟩ | ⟨rfl, rfl⟩ | ⟨rfl, rfl⟩
  · exact ⟨16, rfl, by decide, by decide, hexadecimal⟩
  · exact ⟨16, rfl, by decide, by decide, hexadecimal⟩
  · exact ⟨8, rfl, by decide, by decide, octal⟩
  · exact ⟨8, rfl, by decide, by decide, octal⟩
  · exact ⟨2, rfl, by decide, by decide, binary⟩
  · exact ⟨2, rfl, by decide, by decide, binary⟩

theorem exists_mark {text : List Char} (marked : baseMark? text ≠ none) :
    ∃ mark allowed digits, (mark, allowed) ∈ bases ∧ text = '0' :: mark :: digits := by
  obtain ⟨mark, digits, known, rfl⟩ : ∃ mark digits, mark ∈ bases.map Prod.fst ∧
      text = '0' :: mark :: digits := by
    unfold baseMark? at marked
    split at marked
    case h_7 => exact absurd rfl marked
    all_goals exact ⟨_, _, by decide, rfl⟩
  obtain ⟨⟨mark, allowed⟩, isBase, rfl⟩ := List.mem_map.mp known
  exact ⟨mark, allowed, digits, isBase, rfl⟩

/-! ## Texts without surrounding spaces -/

theorem isNaN_ofTrimmed_marked_iff {mark : Char} {allowed : List Char}
    (isBase : (mark, allowed) ∈ bases) (digits : List Char) :
    (ofTrimmed ('0' :: mark :: digits)).isNaN = false ↔
      digits ≠ [] ∧ ∀ c ∈ digits, c ∈ allowed := by
  obtain ⟨base, marked, positive, small, areDigits⟩ := baseMark?_of_mark isBase digits
  rw [← isNaN_inBase_iff positive small areDigits]
  simp only [ofTrimmed, marked, List.isEmpty_cons, Bool.false_eq_true, if_false]

theorem ofTrimmed_infinity {text : List Char} {negative : Bool}
    (sign : Signed text negative "Infinity".toList) : ofTrimmed text = .infinity negative := by
  cases sign <;> rfl

/-- No letter that marks a base can follow a digit of a decimal. -/
theorem not_decimal_of_mark {mark : Char} {allowed : List Char} (isBase : (mark, allowed) ∈ bases) :
    (mark.isDigit = false ∧ mark ≠ '.') ∧ ¬ (mark = 'e' ∨ mark = 'E') := by
  have all : ∀ pair ∈ bases,
      (pair.1.isDigit = false ∧ pair.1 ≠ '.') ∧ ¬ (pair.1 = 'e' ∨ pair.1 = 'E') := by decide
  exact all (mark, allowed) isBase

theorem baseMark?_of_decimal? {text body : List Char} {negative : Bool} {result : Nat × Int}
    (sign : Signed text negative body) (read : decimal? body = some result) :
    baseMark? text = none := by
  by_contra marked
  obtain ⟨mark, allowed, digits, isBase, rfl⟩ := exists_mark marked
  obtain ⟨stops, noPower⟩ := not_decimal_of_mark isBase
  have noExponent : exponent? (mark :: digits) = none := by simp [exponent?, noPower]
  have noDecimal : decimal? ('0' :: mark :: digits) = none := by
    have whole := decimal?_whole ['0'] (mark :: digits) (by simp) (by simp) (by simpa using stops)
    rwa [noExponent] at whole
  cases sign
  rw [noDecimal] at read
  cases read

theorem ofTrimmed_decimal {text body : List Char} {negative : Bool} {digits : Nat} {exponent : Int}
    (sign : Signed text negative body) (read : decimal? body = some (digits, exponent)) :
    ofTrimmed text = .ofDecimal negative digits exponent := by
  have split := splitSign_of_signed sign (noSign_of_decimal? read)
  have nonempty : text.isEmpty = false := by
    cases sign with
    | plus => rfl
    | minus => rfl
    | plain =>
        cases text with
        | nil => cases read
        | cons _ _ => rfl
  have notInfinity : body ≠ "Infinity".toList := by
    rintro rfl
    cases read
  rw [ofTrimmed_eq nonempty (baseMark?_of_decimal? sign read), split, if_neg notInfinity, read]

/-- Exactly the literals of the grammar give a number. -/
theorem isNaN_ofTrimmed_iff (text : List Char) :
    (ofTrimmed text).isNaN = false ↔ NumericLiteral text := by
  constructor
  · intro isNumber
    by_cases marked : baseMark? text = none
    · have sign := signed_splitSign text
      cases empty : text.isEmpty with
      | true =>
          obtain rfl := List.isEmpty_iff.mp empty
          exact .empty
      | false =>
          rw [ofTrimmed_eq empty marked] at isNumber
          split at isNumber
          · rename_i isInfinity
            rw [isInfinity] at sign
            exact .infinity sign
          · split at isNumber
            · rename_i read
              exact .decimal sign (literal_of_decimal? read)
            · cases isNumber
    · obtain ⟨mark, allowed, digits, isBase, rfl⟩ := exists_mark marked
      obtain ⟨nonempty, areAllowed⟩ := (isNaN_ofTrimmed_marked_iff isBase digits).mp isNumber
      exact .based isBase nonempty areAllowed
  · intro literal
    cases literal with
    | empty => rfl
    | based isBase nonempty areAllowed =>
        exact (isNaN_ofTrimmed_marked_iff isBase _).mpr ⟨nonempty, areAllowed⟩
    | infinity sign =>
        rw [ofTrimmed_infinity sign]
        rfl
    | decimal sign literal =>
        obtain ⟨digits, exponent, read, -⟩ := decimal?_of_literal literal
        rw [ofTrimmed_decimal sign read]
        exact (Double.isRounding_ofDecimal _ _ _).isNumber

/-- A text gives a number exactly if it is a literal between spaces. The empty literal is zero, an
infinity is the one of its sign, and a decimal is the rounding of its exact value, with its sign
even where the value is zero. -/
theorem ofText_literal (raw : String) :
    ∃ core, (∀ other, Text.IsCore raw.toList other ↔ other = core) ∧
      ((ofText raw).isNaN = false ↔ NumericLiteral core) ∧
      (core = [] → ofText raw = .zero false) ∧
      (∀ negative, Signed core negative "Infinity".toList → ofText raw = .infinity negative) ∧
      ∀ negative body q, Signed core negative body → DecimalLiteral body q →
        (∀ x : Double, x.IsRounding negative q ↔ ofText raw = x) ∧
          (q = 0 → ofText raw = .zero negative) := by
  refine ⟨Text.trim raw.toList, fun other => Text.isCore_iff, isNaN_ofTrimmed_iff _, ?_,
    fun negative sign => ofTrimmed_infinity sign, ?_⟩
  · intro empty
    rw [ofText, empty]
    rfl
  · intro negative body q sign literal
    obtain ⟨digits, exponent, read, rfl⟩ := decimal?_of_literal literal
    have value : ofText raw = .ofDecimal negative digits exponent := ofTrimmed_decimal sign read
    refine ⟨fun x => ?_, fun zero => ?_⟩
    · rw [value]
      exact Double.ofDecimal_eq_iff.symm
    · have noDigits : digits = 0 := by
        exact_mod_cast (mul_eq_zero.mp zero).resolve_right (by positivity)
      rw [value, noDigits]
      rfl

/-- A negative zero with a point and a power of ten, between two of the rarer spaces. -/
theorem ofText_negative_zero :
    Text.IsCore "\u00a0-0.e-3\ufeff".toList "-0.e-3".toList ∧
      Signed "-0.e-3".toList true "0.e-3".toList ∧
        DecimalLiteral "0.e-3".toList 0 ∧ ofText "\u00a0-0.e-3\ufeff" = .zero true := by
  obtain ⟨core, isCore, -, -, -, decimals⟩ := ofText_literal "\u00a0-0.e-3\ufeff"
  have trimmed : Text.IsCore "\u00a0-0.e-3\ufeff".toList "-0.e-3".toList :=
    ⟨⟨['\u00a0'], ['\ufeff'], rfl, by simp [Text.spaces], by simp [Text.spaces]⟩,
      by simp [Text.spaces], by simp [Text.spaces]⟩
  obtain rfl := (isCore _).mp trimmed
  have power : Exponent "e-3".toList (-3) :=
    .present List.mem_cons_self (.minus ['3']) ⟨nofun, by simp⟩
  have literal : DecimalLiteral "0.e-3".toList 0 := by
    have value : Nat.ofDigitChars 10 ['0'] 0 = 0 := rfl
    have pointed : DecimalLiteral (['0'] ++ '.' :: ([] ++ "e-3".toList)) _ :=
      .pointed ⟨nofun, by simp⟩ (Or.inl rfl) power
    simpa [value] using pointed
  have sign : Signed "-0.e-3".toList true "0.e-3".toList := .minus _
  exact ⟨trimmed, sign, literal, (decimals true _ 0 sign literal).2 rfl⟩

end Numeric

end TreeQuery
