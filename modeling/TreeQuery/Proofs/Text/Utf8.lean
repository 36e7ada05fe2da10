import Mathlib.Tactic.ByContra
import TreeQuery.Text.Utf8

/-!
# Decoding undoes encoding

The bytes that the machine decodes are exactly the encodings of texts: a text is read back from its
encoding, and bytes that are decoded are the encoding of what they give. Both follow character by
character from the sequences of one to four bytes that the standard allows.
-/

namespace TreeQuery.Utf8

/-- The bytes of a text. -/
def encode (text : List Char) : List UInt8 :=
  text.flatMap String.utf8EncodeChar

/-- Whether a byte continues a character. -/
def IsTail (byte : UInt8) : Prop :=
  0x80 ≤ byte.toNat ∧ byte.toNat ≤ 0xbf

/-- The well-formed sequences for one character, with its code point. -/
inductive Sequence : List UInt8 → Nat → Prop where
  | one {a : UInt8} (low : a.toNat ≤ 0x7f) : Sequence [a] a.toNat
  | two {a b : UInt8} (least : 0xc2 ≤ a.toNat) (greatest : a.toNat ≤ 0xdf) (second : IsTail b) :
      Sequence [a, b] ((a.toNat - 0xc0) * 64 + (b.toNat - 0x80))
  | three {a b c : UInt8} (least : 0xe0 ≤ a.toNat) (greatest : a.toNat ≤ 0xef) (second : IsTail b)
      (third : IsTail c) (notShort : a.toNat = 0xe0 → 0xa0 ≤ b.toNat)
      (noSurrogate : a.toNat = 0xed → b.toNat ≤ 0x9f) :
      Sequence [a, b, c]
        (((a.toNat - 0xe0) * 64 + (b.toNat - 0x80)) * 64 + (c.toNat - 0x80))
  | four {a b c d : UInt8} (least : 0xf0 ≤ a.toNat) (greatest : a.toNat ≤ 0xf4)
      (second : IsTail b) (third : IsTail c) (fourth : IsTail d)
      (notShort : a.toNat = 0xf0 → 0x90 ≤ b.toNat) (inRange : a.toNat = 0xf4 → b.toNat ≤ 0x8f) :
      Sequence [a, b, c, d]
        ((((a.toNat - 0xf0) * 64 + (b.toNat - 0x80)) * 64 + (c.toNat - 0x80)) * 64 +
          (d.toNat - 0x80))

namespace Sequence

theorem isValidChar {bytes : List UInt8} {code : Nat} (sequence : Sequence bytes code) :
    code.isValidChar := by
  unfold Nat.isValidChar
  cases sequence with
  | one low => omega
  | two least greatest second =>
      unfold IsTail at second
      omega
  | three least greatest second third notShort noSurrogate =>
      unfold IsTail at second third
      omega
  | four least greatest second third fourth notShort inRange =>
      unfold IsTail at second third fourth
      omega

theorem utf8EncodeChar_eq {bytes : List UInt8} {code : Nat} (sequence : Sequence bytes code) :
    String.utf8EncodeChar (Char.ofNat code) = bytes := by
  have value : (Char.ofNat code).val.toNat = code := by
    rw [Char.ofNat, dif_pos sequence.isValidChar]
    rfl
  have same : ∀ {n : Nat} {byte : UInt8}, n = byte.toNat → UInt8.ofNat n = byte := by
    rintro _ _ rfl
    exact UInt8.ofNat_toNat
  simp only [String.utf8EncodeChar, value]
  cases sequence with
  | one low => rw [if_pos low, UInt8.ofNat_toNat]
  | two least greatest second =>
      unfold IsTail at second
      rw [if_neg (by omega), if_pos (by omega), same, same] <;> omega
  | three least greatest second third notShort noSurrogate =>
      unfold IsTail at second third
      rw [if_neg (by omega), if_neg (by omega), if_pos (by omega), same, same, same] <;> omega
  | four least greatest second third fourth notShort inRange =>
      unfold IsTail at second third fourth
      rw [if_neg (by omega), if_neg (by omega), if_neg (by omega), same, same, same, same] <;> omega

theorem cast {bytes : List UInt8} {code other : Nat} (same : code = other)
    (sequence : Sequence bytes code) : Sequence bytes other :=
  same ▸ sequence

/-- Every character is written by a well-formed sequence. -/
theorem ofChar (c : Char) : Sequence (String.utf8EncodeChar c) c.toNat := by
  have valid : c.toNat.isValidChar := c.valid
  unfold Nat.isValidChar at valid
  simp only [String.utf8EncodeChar, Char.toNat_val]
  generalize c.toNat = code at valid
  split
  · refine .cast ?_ (.one ?_) <;> rw [UInt8.toNat_ofNat'] <;> omega
  · split
    · refine .cast ?_ (.two ?_ ?_ ⟨?_, ?_⟩) <;> simp only [UInt8.toNat_ofNat'] <;> omega
    · split
      · refine .cast ?_ (.three ?_ ?_ ⟨?_, ?_⟩ ⟨?_, ?_⟩ ?_ ?_) <;>
          simp only [UInt8.toNat_ofNat'] <;> omega
      · refine .cast ?_ (.four ?_ ?_ ⟨?_, ?_⟩ ⟨?_, ?_⟩ ⟨?_, ?_⟩ ?_ ?_) <;>
          simp only [UInt8.toNat_ofNat'] <;> omega

end Sequence

/-! ## The machine -/

theorem begin?_two {byte : Nat} (least : 0xc2 ≤ byte) (greatest : byte ≤ 0xdf) :
    begin? byte = some { bits := byte - 0xc0, read := 1, owed := 1 } := by
  rw [begin?, if_neg (by omega), if_neg (by omega), if_pos greatest]

/-- At the ends of the range of three bytes the next byte is narrowed. -/
theorem begin?_three {byte : Nat} (least : 0xe0 ≤ byte) (greatest : byte ≤ 0xef) :
    begin? byte = some
      { bits := byte - 0xe0, read := 1, owed := 2
        low := if byte = 0xe0 then 0xa0 else 0x80
        high := if byte = 0xed then 0x9f else 0xbf } := by
  by_cases first : byte = 0xe0
  · subst first
    rfl
  · by_cases surrogate : byte = 0xed
    · subst surrogate
      rfl
    · rw [begin?, if_neg (by omega), if_neg (by omega), if_neg (by omega), if_neg first,
        if_neg surrogate, if_pos greatest, if_neg first, if_neg surrogate]

/-- At the ends of the range of four bytes the next byte is narrowed. -/
theorem begin?_four {byte : Nat} (least : 0xf0 ≤ byte) (greatest : byte ≤ 0xf4) :
    begin? byte = some
      { bits := byte - 0xf0, read := 1, owed := 3
        low := if byte = 0xf0 then 0x90 else 0x80
        high := if byte = 0xf4 then 0x8f else 0xbf } := by
  by_cases first : byte = 0xf0
  · subst first
    rfl
  · by_cases last : byte = 0xf4
    · subst last
      rfl
    · rw [begin?, if_neg (by omega), if_neg (by omega), if_neg (by omega), if_neg (by omega),
        if_neg (by omega), if_neg (by omega), if_neg first, if_pos (by omega), if_neg first,
        if_neg last]

theorem range_of_begin? {byte : Nat} {begun : Begun} (begins : begin? byte = some begun) :
    byte ≤ 0x7f ∨ (0xc2 ≤ byte ∧ byte ≤ 0xdf) ∨ (0xe0 ≤ byte ∧ byte ≤ 0xef) ∨
      (0xf0 ≤ byte ∧ byte ≤ 0xf4) := by
  unfold begin? at begins
  repeat' split at begins
  all_goals first | omega | cases begins

section Steps

variable {index : Nat} {text : List Char} {byte : UInt8} {bytes : List UInt8} {begun : Begun}

theorem decodeFrom_whole (begins : begin? byte.toNat = some begun) (whole : begun.owed = 0) :
    decodeFrom index none text (byte :: bytes) =
      decodeFrom (index + 1) none (Char.ofNat begun.bits :: text) bytes := by
  simp only [decodeFrom, begins, if_pos whole]

theorem decodeFrom_begun (begins : begin? byte.toNat = some begun) (owed : begun.owed ≠ 0) :
    decodeFrom index none text (byte :: bytes) =
      decodeFrom (index + 1) (some begun) text bytes := by
  simp only [decodeFrom, begins, if_neg owed]

theorem decodeFrom_last (least : begun.low ≤ byte.toNat) (greatest : byte.toNat ≤ begun.high)
    (owed : begun.owed = 1) :
    decodeFrom index (some begun) text (byte :: bytes) =
      decodeFrom (index + 1) none
        (Char.ofNat (begun.bits * 64 + (byte.toNat - 0x80)) :: text) bytes := by
  simp only [decodeFrom, Begun.next?, if_pos (And.intro least greatest), owed, Nat.sub_self,
    if_true]

theorem decodeFrom_next {owed : Nat} (least : begun.low ≤ byte.toNat)
    (greatest : byte.toNat ≤ begun.high) (more : begun.owed = owed + 2) :
    decodeFrom index (some begun) text (byte :: bytes) =
      decodeFrom (index + 1)
        (some { bits := begun.bits * 64 + (byte.toNat - 0x80), read := begun.read + 1
                owed := owed + 1 }) text bytes := by
  simp only [decodeFrom, Begun.next?, if_pos (And.intro least greatest), more,
    Nat.add_one_sub_one, Nat.add_one_ne_zero, if_false]

end Steps

/-- Inside a character only a byte of the range goes on. -/
theorem exists_next_of_ok {index : Nat} {text result : List Char} {bytes : List UInt8}
    {begun : Begun} (decoded : decodeFrom index (some begun) text bytes = .ok result) :
    ∃ byte rest, bytes = byte :: rest ∧ begun.low ≤ byte.toNat ∧ byte.toNat ≤ begun.high := by
  cases bytes with
  | nil => cases decoded
  | cons byte rest =>
      refine ⟨byte, rest, rfl, ?_⟩
      by_contra outside
      simp [decodeFrom, Begun.next?, outside] at decoded

/-- The machine reads a well-formed sequence as its character. -/
theorem Sequence.decodeFrom_append {taken : List UInt8} {code : Nat}
    (sequence : Sequence taken code) (index : Nat) (text : List Char) (bytes : List UInt8) :
    decodeFrom index none text (taken ++ bytes) =
      decodeFrom (index + taken.length) none (Char.ofNat code :: text) bytes := by
  cases sequence with
  | one low => exact decodeFrom_whole (if_pos low) rfl
  | two least greatest second =>
      rw [List.cons_append, decodeFrom_begun (begin?_two least greatest) Nat.one_ne_zero,
        List.cons_append, decodeFrom_last second.1 second.2 rfl]
      rfl
  | @three a b c least greatest second third notShort noSurrogate =>
      have low : (if a.toNat = 0xe0 then 0xa0 else 0x80) ≤ b.toNat := by
        have := second.1
        split <;> omega
      have high : b.toNat ≤ if a.toNat = 0xed then 0x9f else 0xbf := by
        have := second.2
        split <;> omega
      rw [List.cons_append, decodeFrom_begun (begin?_three least greatest) (Nat.succ_ne_zero 1),
        List.cons_append, decodeFrom_next low high rfl, List.cons_append,
        decodeFrom_last third.1 third.2 rfl]
      rfl
  | @four a b c d least greatest second third fourth notShort inRange =>
      have low : (if a.toNat = 0xf0 then 0x90 else 0x80) ≤ b.toNat := by
        have := second.1
        split <;> omega
      have high : b.toNat ≤ if a.toNat = 0xf4 then 0x8f else 0xbf := by
        have := second.2
        split <;> omega
      rw [List.cons_append, decodeFrom_begun (begin?_four least greatest) (Nat.succ_ne_zero 2),
        List.cons_append, decodeFrom_next low high rfl, List.cons_append,
        decodeFrom_next third.1 third.2 rfl, List.cons_append,
        decodeFrom_last fourth.1 fourth.2 rfl]
      rfl

/-- Bytes that are decoded start with a well-formed sequence. -/
theorem exists_sequence_of_ok {index : Nat} {text result : List Char} {byte : UInt8}
    {bytes : List UInt8} (decoded : decodeFrom index none text (byte :: bytes) = .ok result) :
    ∃ taken code rest, byte :: bytes = taken ++ rest ∧ Sequence taken code := by
  cases begins : begin? byte.toNat with
  | none => simp [decodeFrom, begins] at decoded
  | some begun =>
      rcases range_of_begin? begins with ascii | ⟨least, greatest⟩ | ⟨least, greatest⟩ |
        ⟨least, greatest⟩
      · exact ⟨[byte], _, bytes, rfl, .one ascii⟩
      · rw [decodeFrom_begun (begin?_two least greatest) Nat.one_ne_zero] at decoded
        obtain ⟨b, rest, rfl, second⟩ := exists_next_of_ok decoded
        exact ⟨[byte, b], _, rest, rfl, .two least greatest second⟩
      · rw [decodeFrom_begun (begin?_three least greatest) (Nat.succ_ne_zero 1)] at decoded
        obtain ⟨b, rest, rfl, low, high⟩ := exists_next_of_ok decoded
        rw [decodeFrom_next low high rfl] at decoded
        obtain ⟨c, rest, rfl, third⟩ := exists_next_of_ok decoded
        simp only at low high
        refine ⟨[byte, b, c], _, rest, rfl, .three least greatest ⟨?_, ?_⟩ third ?_ ?_⟩ <;>
          split at low <;> split at high <;> omega
      · rw [decodeFrom_begun (begin?_four least greatest) (Nat.succ_ne_zero 2)] at decoded
        obtain ⟨b, rest, rfl, low, high⟩ := exists_next_of_ok decoded
        rw [decodeFrom_next low high rfl] at decoded
        obtain ⟨c, rest, rfl, third⟩ := exists_next_of_ok decoded
        rw [decodeFrom_next third.1 third.2 rfl] at decoded
        obtain ⟨d, rest, rfl, fourth⟩ := exists_next_of_ok decoded
        simp only at low high
        refine ⟨[byte, b, c, d], _, rest, rfl, .four least greatest ⟨?_, ?_⟩ third fourth ?_ ?_⟩ <;>
          split at low <;> split at high <;> omega

/-! ## Texts -/

theorem decodeFrom_encode (index : Nat) (before text : List Char) :
    decodeFrom index none before (encode text) = .ok (before.reverse ++ text) := by
  induction text generalizing index before with
  | nil => simp [encode, decodeFrom]
  | cons c text induction =>
      have sequence := Sequence.ofChar c
      rw [encode, List.flatMap_cons, sequence.decodeFrom_append, Char.ofNat_toNat]
      exact (induction _ _).trans (by simp)

theorem decodeFrom_eq_ok {index : Nat} {before text : List Char} {bytes : List UInt8}
    (decoded : decodeFrom index none before bytes = .ok text) :
    ∃ rest, text = before.reverse ++ rest ∧ bytes = encode rest := by
  match bytes with
  | [] =>
      obtain rfl := Except.ok.inj decoded
      exact ⟨[], by simp, rfl⟩
  | byte :: bytes =>
      -- The induction is on the number of bytes: every sequence takes at least one.
      obtain ⟨taken, code, later, same, sequence⟩ := exists_sequence_of_ok decoded
      have shorter : later.length < (byte :: bytes).length := by
        rw [same, List.length_append]
        cases sequence <;> simp
      rw [same, sequence.decodeFrom_append] at decoded
      obtain ⟨rest, rfl, rfl⟩ := decodeFrom_eq_ok decoded
      refine ⟨Char.ofNat code :: rest, by simp, ?_⟩
      rw [same]
      exact congrArg (· ++ encode rest) sequence.utf8EncodeChar_eq.symm
termination_by bytes.length
decreasing_by exact shorter

/-- The bytes that give a text are its encoding. -/
theorem decode_eq_ok_iff {bytes : List UInt8} {text : List Char} :
    decode bytes = .ok text ↔ bytes = encode text := by
  constructor
  · intro decoded
    obtain ⟨rest, rfl, same⟩ := decodeFrom_eq_ok decoded
    exact same
  · rintro rfl
    exact decodeFrom_encode 0 [] text

end TreeQuery.Utf8
