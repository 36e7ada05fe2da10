import Mathlib.Data.Int.Bitwise
import Mathlib.Data.Int.ConditionallyCompleteOrder
import TreeQuery.Proofs.Number.Word
import TreeQuery.Static.Operator

/-!
# Bitwise operators

The bitwise operators and the shifts act on the residues of the operands' integer parts as on
integers in two's complement. Their results are integers in the range of a word, held exactly, and
their own words are those integers again.
-/

namespace TreeQuery.Primitive

/-! ## Words as integers -/

/-- Integers with the same bits in two's complement are equal. A natural number has no bits from
some place on, and a negative one has all of them. -/
theorem eq_of_testBit_eq {m n : Int} (same : ∀ i, m.testBit i = n.testBit i) : m = n := by
  have absent {k i : Nat} (atMost : k ≤ i) : k.testBit i = false :=
    Nat.testBit_lt_two_pow (lt_of_le_of_lt atMost Nat.lt_two_pow_self)
  have apart (k l : Nat) : (Int.ofNat k).testBit (k + l) ≠ (Int.negSucc l).testBit (k + l) := by
    rw [Int.testBit, Int.testBit, absent (Nat.le_add_right k l), absent (Nat.le_add_left l k)]
    exact Bool.false_ne_true
  cases m with
  | ofNat k =>
      cases n with
      | ofNat l => exact congrArg Int.ofNat (Nat.eq_of_testBit_eq same)
      | negSucc l => exact absurd (same (k + l)) (apart k l)
  | negSucc l =>
      cases n with
      | ofNat k => exact absurd (same (k + l)).symm (apart k l)
      | negSucc k =>
          exact congrArg Int.negSucc (Nat.eq_of_testBit_eq fun i => Bool.not_inj (same i))

/-- The sign of a word goes on beyond its last bit. -/
theorem testBit_toInt (word : BitVec 32) (i : Nat) :
    word.toInt.testBit i = word.getLsbD (min i 31) := by
  have natural (word : BitVec 32) (sign : word.msb = false) :
      word.toNat.testBit i = word.getLsbD (min i 31) := by
    rcases lt_or_ge i 32 with inside | outside
    · rw [min_eq_left (by omega), BitVec.testBit_toNat]
    · rw [min_eq_right (by omega), BitVec.testBit_toNat, BitVec.getLsbD_of_ge word i outside]
      exact sign.symm.trans (BitVec.msb_eq_getLsbD_last word)
  cases sign : word.msb with
  | false =>
      rw [BitVec.toInt_eq_toNat_of_msb sign]
      exact natural word sign
  | true =>
      have complement : word.toInt = Int.negSucc (~~~word).toNat := by
        rw [BitVec.toInt_eq_msb_cond, if_pos sign, BitVec.toNat_not, Int.negSucc_eq]
        have := word.isLt
        omega
      have last : min i 31 < 32 := by omega
      rw [complement, Int.testBit, natural (~~~word) (by simp [sign]), BitVec.getLsbD_not]
      simp [last]

/-- Combining the bits of two words combines the integers that they stand for. -/
theorem toInt_bitwise (f : Bool → Bool → Bool) {x y z : BitVec 32}
    (combined : ∀ i < 32, z.getLsbD i = f (x.getLsbD i) (y.getLsbD i)) :
    z.toInt = Int.bitwise f x.toInt y.toInt := by
  refine eq_of_testBit_eq fun i => ?_
  rw [Int.testBit_bitwise, testBit_toInt, testBit_toInt, testBit_toInt]
  exact combined _ (by omega)

/-! ## Results -/

/-- The integer `n` of the range is the result: a number that holds it exactly, without a sign on
zero, and whose word reads as `n` again. -/
structure IsWord (range : Set Int) (read : BitVec 32 → Int) (n : Int) (result : Option Primitive) :
    Prop where
  inRange : n ∈ range
  exactly : ∃ x, result = some (.number x) ∧ x.Holds n ∧ x ≠ .zero true ∧ read x.word = n

/-- The result is an integer that a word gives with its sign. -/
abbrev IsSignedWord : Int → Option Primitive → Prop :=
  IsWord (Set.Ico (-2 ^ 31) (2 ^ 31)) BitVec.toInt

/-- The result is an integer that a word gives without a sign. -/
abbrev IsUnsignedWord : Int → Option Primitive → Prop :=
  IsWord (Set.Ico 0 (2 ^ 32)) fun word => word.toNat

theorem isWord_ofInt {range : Set Int} {read : BitVec 32 → Int} {word : BitVec 32} {n : Int}
    (inRange : n ∈ range) (fits : n.natAbs < 2 ^ 53) (back : BitVec.ofInt 32 n = word)
    (reads : read word = n) : IsWord range read n (some (.number (.ofInt n))) := by
  have holds := Double.holds_ofInt fits
  refine ⟨inRange, .ofInt n, rfl, holds, fun negativeZero => ?_, ?_⟩
  · have isSigned := (Double.isRounding_ofInt n).signed
    rw [negativeZero] at holds isSigned
    have nothing : (n : ℚ) = 0 := by
      rw [← holds.value_eq]
      simp [Double.value, Double.zero, Double.withSign]
    have negative : n < 0 := of_decide_eq_true (Eq.symm isSigned)
    exact negative.ne (by exact_mod_cast nothing)
  · have part : (Double.ofInt n).integerPart = n := by
      rw [Double.integerPart, holds.value_eq, Double.towardZero_intCast]
    rw [Double.word_eq_ofInt, part, back, reads]

theorem isSignedWord_ofSigned (word : BitVec 32) :
    IsSignedWord word.toInt (some (ofSigned word)) := by
  have lower : -2 ^ 31 ≤ word.toInt := BitVec.le_toInt word
  have upper : word.toInt < 2 ^ 31 := BitVec.toInt_lt
  exact isWord_ofInt ⟨lower, upper⟩ (by omega) BitVec.ofInt_toInt rfl

theorem isUnsignedWord_ofUnsigned (word : BitVec 32) :
    IsUnsignedWord word.toNat (some (ofUnsigned word)) := by
  have upper := word.isLt
  have back : BitVec.ofInt 32 word.toNat = word := by
    rw [BitVec.ofInt_natCast, BitVec.ofNat_toNat, BitVec.setWidth_eq]
  have nonnegative : ¬ (word.toNat : Int) < 0 := by omega
  have same : Double.ofInt word.toNat = .ofNat word.toNat := by
    rw [Double.ofInt, decide_eq_false nonnegative, Int.natAbs_natCast, Double.ofNat]
  rw [ofUnsigned, ← same]
  exact isWord_ofInt ⟨by omega, by omega⟩ (by omega) back rfl

/-! ## Operands -/

/-- The residue of a value's integer part between `-2 ^ 31` and `2 ^ 31`. -/
def signedResidue (value : Primitive) : Int :=
  value.toNumber.integerPart.bmod (2 ^ 32)

/-- The residue of a value's integer part between zero and `2 ^ 32`. -/
def unsignedResidue (value : Primitive) : Int :=
  value.toNumber.integerPart % 2 ^ 32

/-- The residue of a value's integer part between zero and thirty-two. -/
def shiftResidue (value : Primitive) : Nat :=
  (value.toNumber.integerPart % 32).toNat

theorem toInt_word (value : Primitive) : value.word.toInt = value.signedResidue :=
  value.toNumber.toInt_word

theorem toNat_word (value : Primitive) : value.word.toNat = value.unsignedResidue :=
  value.toNumber.toNat_word

/-- Reducing modulo `2 ^ 32` first does not change how far a value shifts. -/
theorem shiftCount_eq (value : Primitive) : value.shiftCount = value.shiftResidue := by
  have unsigned := value.toNat_word
  rw [unsignedResidue] at unsigned
  rw [shiftCount, shiftResidue]
  omega

/-! ## Operators -/

theorem toInt_shiftRight (word : BitVec 32) (count : Nat) :
    (word.sshiftRight count).toInt = ⌊(word.toInt : ℚ) / 2 ^ count⌋ := by
  rw [BitVec.toInt_sshiftRight, Int.shiftRight_eq_div_pow]
  exact_mod_cast (Rat.floor_intCast_div_natCast word.toInt (2 ^ count)).symm

theorem toNat_shiftRight (word : BitVec 32) (count : Nat) :
    ((word >>> count).toNat : Int) = ⌊((word.toNat : Int) : ℚ) / 2 ^ count⌋ := by
  rw [BitVec.toNat_ushiftRight, Nat.shiftRight_eq_div_pow]
  exact_mod_cast (Rat.floor_intCast_div_natCast word.toNat (2 ^ count)).symm

/-- A shift to the left multiplies within the residues. -/
theorem toInt_shiftLeft_modEq (word : BitVec 32) (count : Nat) :
    (word <<< count).toInt ≡ word.toInt * 2 ^ count [ZMOD 2 ^ 32] := by
  have unsigned (word : BitVec 32) : word.toInt ≡ word.toNat [ZMOD 2 ^ 32] := by
    rw [BitVec.toInt_eq_toNat_bmod]
    exact Int.bmod_emod
  calc (word <<< count).toInt ≡ (word <<< count).toNat [ZMOD 2 ^ 32] := unsigned _
    _ ≡ word.toNat * 2 ^ count [ZMOD 2 ^ 32] := by
      rw [BitVec.toNat_shiftLeft, Nat.shiftLeft_eq]
      exact_mod_cast Nat.mod_modEq _ _
    _ ≡ word.toInt * 2 ^ count [ZMOD 2 ^ 32] := (unsigned word).symm.mul_right _

theorem toInt_complement (word : BitVec 32) : (~~~word).toInt = -word.toInt - 1 := by
  have := word.isLt
  rw [BitVec.toInt_eq_toNat_cond, BitVec.toInt_eq_toNat_cond, BitVec.toNat_not]
  split <;> split <;> omega

/-- The bitwise operators and the shifts compute on the residues of the integer parts of any two
values, and their results are integers in the range of a word that are held exactly. -/
theorem bitwise_residues (a b : Primitive) :
    (IsSignedWord (Int.land a.signedResidue b.signedResidue) <|
      BinaryOperator.bitAnd.apply? a b) ∧
    (IsSignedWord (Int.lor a.signedResidue b.signedResidue) <|
      BinaryOperator.bitOr.apply? a b) ∧
    (IsSignedWord (Int.xor a.signedResidue b.signedResidue) <|
      BinaryOperator.bitXor.apply? a b) ∧
    (∃ n, n ≡ a.signedResidue * 2 ^ b.shiftResidue [ZMOD 2 ^ 32] ∧
      (IsSignedWord n <| BinaryOperator.shiftLeft.apply? a b)) ∧
    (IsSignedWord ⌊(a.signedResidue : ℚ) / 2 ^ b.shiftResidue⌋ <|
      BinaryOperator.shiftRight.apply? a b) ∧
    (IsUnsignedWord ⌊(a.unsignedResidue : ℚ) / 2 ^ b.shiftResidue⌋ <|
      BinaryOperator.shiftRightUnsigned.apply? a b) ∧
    (IsSignedWord (-a.signedResidue - 1) <| UnaryOperator.bitNot.apply? a) := by
  rw [← shiftCount_eq, ← toInt_word, ← toInt_word, ← toNat_word]
  refine ⟨?_, ?_, ?_, ⟨_, toInt_shiftLeft_modEq _ _, isSignedWord_ofSigned _⟩, ?_, ?_, ?_⟩
  · rw [← Int.bitwise_and, ← toInt_bitwise and fun i _ => BitVec.getLsbD_and]
    exact isSignedWord_ofSigned _
  · rw [← Int.bitwise_or, ← toInt_bitwise or fun i _ => BitVec.getLsbD_or]
    exact isSignedWord_ofSigned _
  · rw [← Int.bitwise_xor, ← toInt_bitwise xor fun i _ => BitVec.getLsbD_xor]
    exact isSignedWord_ofSigned _
  · rw [← toInt_shiftRight]
    exact isSignedWord_ofSigned _
  · rw [← toNat_shiftRight]
    exact isUnsignedWord_ofUnsigned _
  · rw [← toInt_complement]
    exact isSignedWord_ofSigned _

end TreeQuery.Primitive
