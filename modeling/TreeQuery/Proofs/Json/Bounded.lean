import TreeQuery.Proofs.Json.Pointer
import TreeQuery.Proofs.Json.Reader
import TreeQuery.Proofs.Number.Finite

/-!
# Numbers that values can hold

A value holds whole numbers of sixty-four bits and finite doubles. A text gives no others: a numeral
beyond the doubles is refused.
-/

namespace TreeQuery.Json

/-! ## Bounded values -/

/-- A whole number of sixty-four bits, with or without a sign, or a finite double. -/
def Number.IsBounded : Number → Prop
  | .integer value => -2 ^ 63 ≤ value ∧ value < 2 ^ 64
  | .double value => value.isFinite = true

theorem pow_le_pow_ten : 2 ^ 64 ≤ 10 ^ 308 :=
  (pow_le_pow_left₀ two_pos.le (show 2 ≤ 10 by norm_num) 64).trans
    (pow_le_pow_right₀ (by norm_num) (by norm_num))

theorem Number.isFinite_toDouble {value : Number} (bounded : value.IsBounded) :
    value.toDouble.isFinite = true := by
  cases value with
  | integer value =>
      obtain ⟨low, high⟩ := bounded
      have magnitude : value.natAbs ≤ 2 ^ 64 := by omega
      exact Double.isFinite_ofInt_of_le (magnitude.trans pow_le_pow_ten)
  | double value => exact bounded

/-- All numbers in a value are bounded. -/
inductive IsBounded : Json → Prop where
  | null : IsBounded .null
  | bool (value : Bool) : IsBounded (.bool value)
  | number {value : Number} (bounded : value.IsBounded) : IsBounded (.number value)
  | string (value : String) : IsBounded (.string value)
  | array {items : List Json} (inside : ∀ item ∈ items, IsBounded item) : IsBounded (.array items)
  | object {members : List (String × Json)} (inside : ∀ member ∈ members, IsBounded member.2) :
      IsBounded (.object members)

namespace IsBounded

theorem of_number {value : Number} (bounded : IsBounded (.number value)) : value.IsBounded := by
  cases bounded with
  | number bounded => exact bounded

theorem of_item {items : List Json} (bounded : IsBounded (.array items)) :
    ∀ item ∈ items, item.IsBounded := by
  cases bounded with
  | array inside => exact inside

theorem of_member {members : List (String × Json)} (bounded : IsBounded (.object members)) :
    ∀ member ∈ members, member.2.IsBounded := by
  cases bounded with
  | object inside => exact inside

/-- Sorting members and dropping repeated ones brings in no numbers. -/
theorem canonical {value : Json} (bounded : value.IsBounded) : value.canonical.IsBounded := by
  induction value using induction_on_values with
  | array items induction =>
      rw [Json.canonical, canonicalItems_eq_map]
      exact .array (List.forall_mem_map.mpr fun item present =>
        induction item present (bounded.of_item item present))
  | object members induction =>
      refine .object fun member present => ?_
      obtain ⟨value, inMembers, same⟩ := exists_of_mem_canonicalMembers present
      rw [same]
      exact induction _ inMembers (bounded.of_member _ inMembers)
  | _ => exact bounded

theorem resolve? {pointer : Pointer} {value inner : Json} (bounded : value.IsBounded)
    (found : pointer.resolve? value = some inner) : inner.IsBounded :=
  Pointer.holds_of_resolve? of_item of_member bounded found

end IsBounded

/-! ## Numerals -/

namespace Numeral

theorem isBounded_of_whole? {numeral : Numeral} {value : Int}
    (whole : numeral.whole? = some value) : (Number.integer value).IsBounded := by
  rw [whole?] at whole
  split at whole
  · cases whole
  · split at whole <;> split at whole <;> cases whole <;> constructor <;> omega

namespace Scaled

/-- A digit is taken only where the significand stays below `2 ^ 64`. -/
theorem lt_of_admits {scaled : Scaled} {c : Char} (admits : scaled.admits c = true) :
    scaled.significand * 10 + digitValue c < 2 ^ 64 :=
  of_decide_eq_true (Bool.and_eq_true_iff.mp admits).2

theorem significand_addWhole_lt {scaled : Scaled} {c : Char}
    (less : scaled.significand < 2 ^ 64) : (scaled.addWhole c).significand < 2 ^ 64 := by
  rw [addWhole]
  split
  · rename_i admits
    exact lt_of_admits admits
  · exact less

theorem significand_addFraction_lt {scaled : Scaled} {c : Char}
    (less : scaled.significand < 2 ^ 64) : (scaled.addFraction c).significand < 2 ^ 64 := by
  rw [addFraction]
  split
  · rename_i admits
    exact lt_of_admits admits
  · exact less

theorem significand_foldl_lt (take : Scaled → Char → Scaled)
    (takes : ∀ {scaled c}, scaled.significand < 2 ^ 64 → (take scaled c).significand < 2 ^ 64)
    {scaled : Scaled} (less : scaled.significand < 2 ^ 64) (digits : List Char) :
    (digits.foldl take scaled).significand < 2 ^ 64 := by
  induction digits generalizing scaled with
  | nil => exact less
  | cons c digits induction => exact induction (takes less)

end Scaled

theorem significand_lt (numeral : Numeral) : numeral.scaled.significand < 2 ^ 64 := by
  have start : (⟨0, 0, false⟩ : Scaled).significand < 2 ^ 64 := by norm_num
  have whole := Scaled.significand_foldl_lt Scaled.addWhole Scaled.significand_addWhole_lt start
    numeral.whole
  refine Scaled.significand_foldl_lt Scaled.addFraction Scaled.significand_addFraction_lt ?_ _
  exact whole

theorem isFinite_powerOfTen {n : Nat} (atMost : n ≤ 308) : (powerOfTen n).isFinite = true :=
  Double.isFinite_ofNat_of_le (pow_le_pow_right₀ (by norm_num) atMost)

theorem one_le_powerOfTen (n : Nat) : 1 ≤ (powerOfTen n).magnitude :=
  Double.one_le_magnitude_ofNat (Nat.pow_pos (by norm_num))

theorem isFinite_div_powerOfTen {x : Double} {n : Nat} (finite : x.isFinite = true)
    (atMost : n ≤ 308) : (x.div (powerOfTen n)).isFinite = true :=
  Double.isFinite_div finite (isFinite_powerOfTen atMost) (one_le_powerOfTen n)

theorem isFinite_scaleDown {x : Double} (finite : x.isFinite = true) (power : Nat) :
    (scaleDown x power).isFinite = true := by
  have repeated (steps : Nat) :
      (Nat.repeat (fun x : Double => x.div (powerOfTen 308)) steps x).isFinite = true := by
    induction steps with
    | zero => exact finite
    | succ steps induction => exact isFinite_div_powerOfTen induction le_rfl
  exact isFinite_div_powerOfTen (repeated _) (by omega)

/-- A product beyond the doubles is refused. -/
theorem isFinite_of_scaleUp {x product : Double} {power : Nat} (finite : x.isFinite = true)
    (scaled : scaleUp x power = some product) : product.isFinite = true := by
  rw [scaleUp] at scaled
  split at scaled
  · split at scaled
    · cases scaled
      exact finite
    · cases scaled
  · rename_i small
    dsimp only at scaled
    split at scaled
    · cases scaled
    · rename_i fits
      cases scaled
      exact Double.isFinite_mul finite (isFinite_powerOfTen (not_lt.mp small))
        (Bool.not_eq_true _ ▸ fits)

theorem isFinite_of_magnitude {numeral : Numeral} {stop : Nat} {x : Double}
    (found : numeral.magnitude stop = .ok x) : x.isFinite = true := by
  have finite : (Double.ofNat numeral.scaled.significand).isFinite = true :=
    Double.isFinite_ofNat_of_le (numeral.significand_lt.le.trans pow_le_pow_ten)
  rw [magnitude] at found
  generalize numeral.exponent.getD (false, []) = signed at found
  obtain ⟨minus, digits⟩ := signed
  dsimp only at found
  cases written : exponentValue digits 0 0 with
  | error count =>
      rw [written] at found
      dsimp only at found
      split at found
      · cases found
        rfl
      · cases found
  | ok value =>
      rw [written] at found
      dsimp only at found
      generalize (if minus = true then numeral.scaled.exponent - value
        else numeral.scaled.exponent + value) = exponent at found
      split at found
      · cases found
        exact isFinite_scaleDown finite _
      · split at found
        · rename_i scaled
          cases found
          exact isFinite_of_scaleUp finite scaled
        · cases found

theorem isBounded_of_value {numeral : Numeral} {stop : Nat} {number : Number}
    (valued : numeral.value stop = .ok number) : number.IsBounded := by
  rw [value] at valued
  split at valued
  · rename_i whole
    cases valued
    exact isBounded_of_whole? whole
  · obtain ⟨x, found, rfl⟩ := bind_pure_eq_ok_iff.mp valued
    have finite := isFinite_of_magnitude found
    change Double.isFinite (if numeral.negative then x.neg else x) = true
    split
    · rwa [Double.isFinite_neg]
    · exact finite

end Numeral

/-! ## Texts -/

theorem isBounded_of_readScalar {cursor : Cursor} {reached : Json × Cursor}
    (read : readScalar cursor = .ok reached) : reached.1.IsBounded := by
  rcases cases_of_readScalar read with null | ⟨_, bool⟩ | ⟨_, string⟩ | ⟨_, _, _, valued, number⟩
  · rw [null]
    exact .null
  · rw [bool]
    exact .bool _
  · rw [string]
    exact .string _
  · rw [number]
    exact .number (Numeral.isBounded_of_value valued)

theorem isBounded_of_parse {text : List Char} {value : Json} (parsed : parse text = .ok value) :
    value.IsBounded := by
  obtain ⟨cursor, read⟩ := exists_readValue_of_parse parsed
  exact holds_of_readValue (fun _ value => value.IsBounded) isBounded_of_readScalar .array .object
    read

end TreeQuery.Json
