import Mathlib.Data.Bool.AllAny
import Mathlib.Data.Nat.Digits.Lemmas
import TreeQuery.Proofs.Number.Large
import TreeQuery.Proofs.Number.Literal

/-!
# Integers behind a base mark

Digits are added to a number one at a time, and each step rounds. The result is the rounding of the
digits up to the one that reaches `2 ^ 53`, with zeros in the place of the others. It is the
rounding of all digits unless a tie is lost on the way.
-/

namespace TreeQuery.Numeric

/-! ## What digits denote -/

/-- The digits of the bases up to sixteen in their order, with small letters. -/
def smallDigits : List Char :=
  "0123456789abcdef".toList

/-- The same digits with capital letters. -/
def capitalDigits : List Char :=
  "0123456789ABCDEF".toList

/-- The value of a digit; sixteen for any other character. -/
def digitValue (c : Char) : Nat :=
  min (smallDigits.idxOf c) (capitalDigits.idxOf c)

/-- The letters that mark a base behind a zero. -/
def marks : List (Char × Nat) :=
  [('x', 16), ('X', 16), ('o', 8), ('O', 8), ('b', 2), ('B', 2)]

/-- The integer that digits denote, the first digit counting most. -/
def integerOf (base : Nat) (digits : List Char) : Nat :=
  Nat.ofDigits base (digits.reverse.map digitValue)

/-- The digits cut behind the one with which their integer reaches `2 ^ 53`. -/
structure IsCut (base : Nat) (digits head tail : List Char) : Prop where
  whole : digits = head ++ tail
  reached : tail ≠ [] → 2 ^ 53 ≤ integerOf base head
  first : ∀ earlier, earlier <+: head → earlier ≠ head → integerOf base earlier < 2 ^ 53

theorem integerOf_append (base : Nat) (head tail : List Char) :
    integerOf base (head ++ tail) =
      integerOf base head * base ^ tail.length + integerOf base tail := by
  rw [integerOf, List.reverse_append, List.map_append, Nat.ofDigits_append, List.length_map,
    List.length_reverse, integerOf, integerOf]
  ring

theorem integerOf_singleton (base : Nat) (c : Char) : integerOf base [c] = digitValue c := by
  simp [integerOf]

theorem integerOf_lt {base : Nat} (large : 1 < base) {digits : List Char}
    (valid : ∀ c ∈ digits, digitValue c < base) : integerOf base digits < base ^ digits.length := by
  have less := Nat.ofDigits_lt_base_pow_length large
    (l := digits.reverse.map digitValue) (by simpa using valid)
  rwa [List.length_map, List.length_reverse] at less

theorem integerOf_ne_zero_iff {base : Nat} (positive : 0 < base) (digits : List Char) :
    integerOf base digits ≠ 0 ↔ ∃ c ∈ digits, digitValue c ≠ 0 := by
  induction digits with
  | nil => simp [integerOf]
  | cons c rest induction =>
      have parts := integerOf_append base [c] rest
      rw [List.singleton_append, integerOf_singleton] at parts
      have power : base ^ rest.length ≠ 0 := by positivity
      rw [parts, List.exists_mem_cons_iff, ← induction]
      simp only [ne_eq, Nat.add_eq_zero_iff, mul_eq_zero, power, or_false, not_and_or]

theorem IsCut.head_prefix {base : Nat} {digits head tail : List Char}
    (cut : IsCut base digits head tail) : head <+: digits :=
  ⟨tail, cut.whole.symm⟩

/-- A cut is not shorter than another one: the other would have had to go on. -/
theorem IsCut.eq_of_prefix {base : Nat} {digits head tail head' tail' : List Char}
    (cut : IsCut base digits head tail) (cut' : IsCut base digits head' tail')
    (isPrefix : head <+: head') : head = head' := by
  by_contra differs
  have tooSmall := cut'.first head isPrefix differs
  have more : tail ≠ [] := by
    rintro rfl
    have whole : digits = head := by simpa using cut.whole
    exact differs (isPrefix.eq_of_length_le (whole ▸ cut'.head_prefix.length_le))
  exact absurd (cut.reached more) (not_le.mpr tooSmall)

theorem IsCut.unique {base : Nat} {digits head tail head' tail' : List Char}
    (cut : IsCut base digits head tail) (cut' : IsCut base digits head' tail') :
    head' = head ∧ tail' = tail := by
  have same : head' = head := by
    rcases List.prefix_or_prefix_of_prefix cut.head_prefix cut'.head_prefix with shorter | longer
    · exact (cut.eq_of_prefix cut' shorter).symm
    · exact cut'.eq_of_prefix cut longer
  subst same
  exact ⟨rfl, List.append_cancel_left (cut'.whole.symm.trans cut.whole)⟩

/-! ## Adding digits -/

/-- The last digit is added last. -/
theorem accumulate_concat {base digit : Nat} {c : Char} (read : digit? base c = some digit)
    (sum : Double) (digits : List Char) :
    accumulate base sum (digits ++ [c]) =
      ((accumulate base sum digits).mul (.ofNat base)).add (.ofNat digit) := by
  induction digits generalizing sum with
  | nil => simp [accumulate, read]
  | cons a rest induction =>
      cases leading : digit? base a with
      | none =>
          simp only [List.cons_append, accumulate, leading]
          rfl
      | some value =>
          simp only [List.cons_append, accumulate, leading]
          exact induction _

/-- The sum of digits is the rounding of the digits up to the cut, followed by zeros. The induction
takes away the last digit: it belongs to the head as long as the digits before it are below
`2 ^ 53`. -/
theorem exists_cut_accumulate {width : Nat} (narrow : width ≤ 4) (digits : List Char)
    (valid : ∀ c ∈ digits, digit? (2 ^ width) c = some (digitValue c)) :
    ∃ head tail, IsCut (2 ^ width) digits head tail ∧
      accumulate (2 ^ width) (.zero false) digits =
        .ofNat (integerOf (2 ^ width) head * (2 ^ width) ^ tail.length) := by
  induction digits using List.reverseRec with
  | nil => exact ⟨[], [], ⟨rfl, nofun, by simp⟩, rfl⟩
  | append_singleton digits c induction =>
      obtain ⟨earlierValid, lastValid⟩ := List.forall_mem_append.mp valid
      have read := lastValid c List.mem_cons_self
      have below := lt_base_of_digit? read
      obtain ⟨head, tail, cut, sum⟩ := induction earlierValid
      rw [accumulate_concat read, sum]
      by_cases more : tail = [] ∧ integerOf (2 ^ width) head < 2 ^ 53
      · obtain ⟨rfl, small⟩ := more
        obtain rfl : digits = head := by simpa using cut.whole
        refine ⟨digits ++ [c], [], ⟨by simp, nofun, fun earlier isPrefix proper => ?_⟩, ?_⟩
        · rcases List.prefix_concat_iff.mp isPrefix with same | shorter
          · exact absurd same proper
          · by_cases same : earlier = digits
            · rwa [same]
            · exact cut.first earlier shorter same
        · rw [List.length_nil, pow_zero, mul_one, mul_one, integerOf_append, integerOf_singleton,
            List.length_singleton, pow_one]
          exact Double.step_of_small narrow below small
      · have reached : 2 ^ 53 ≤ integerOf (2 ^ width) head := by
          by_cases complete : tail = []
          · exact not_lt.mp fun small => more ⟨complete, small⟩
          · exact cut.reached complete
        have whole : IsCut (2 ^ width) (digits ++ [c]) head (tail ++ [c]) :=
          ⟨by rw [cut.whole, List.append_assoc], fun _ => reached, cut.first⟩
        refine ⟨head, tail ++ [c], whole, ?_⟩
        have large : 2 ^ 53 ≤ integerOf (2 ^ width) head * (2 ^ width) ^ tail.length :=
          reached.trans (Nat.le_mul_of_pos_right _ (by positivity))
        rw [Double.step_of_large narrow below large, List.length_append, List.length_singleton,
          pow_succ, mul_assoc]

/-! ## Marked texts -/

theorem mem_digits_of_digitValue_lt {c : Char} (below : digitValue c < 16) :
    c ∈ smallDigits ++ capitalDigits := by
  rw [List.mem_append]
  rcases min_lt_iff.mp below with small | capital
  · exact Or.inl (List.idxOf_lt_length_iff.mp small)
  · exact Or.inr (List.idxOf_lt_length_iff.mp capital)

theorem not_isBlank_of_digitValue_lt {c : Char} (below : digitValue c < 16) :
    Text.isBlank c = false := by
  have all : ∀ c ∈ smallDigits ++ capitalDigits, Text.isBlank c = false :=
    List.all_iff_forall_prop.mp (by decide)
  exact all c (mem_digits_of_digitValue_lt below)

/-- A mark stands for a base of at most four bits, and its digits are read with their values. -/
theorem exists_width_of_mark {mark : Char} {base : Nat} (isMark : (mark, base) ∈ marks) :
    ∃ width, 1 ≤ width ∧ width ≤ 4 ∧ base = 2 ^ width ∧ Text.isBlank mark = false ∧
      (∀ digits, baseMark? ('0' :: mark :: digits) = some (base, digits)) ∧
        ∀ c, digitValue c < base → digit? base c = some (digitValue c) := by
  have read (base : Nat) (atMost : base ≤ 16)
      (table : (smallDigits ++ capitalDigits).all fun c =>
        digitValue c < base → digit? base c = some (digitValue c)) (c : Char)
      (below : digitValue c < base) : digit? base c = some (digitValue c) :=
    List.all_iff_forall_prop.mp table c
      (mem_digits_of_digitValue_lt (below.trans_le atMost)) below
  have hexadecimal := read 16 le_rfl (by decide)
  have octal := read 8 (by norm_num) (by decide)
  have binary := read 2 (by norm_num) (by decide)
  simp only [marks, List.mem_cons, Prod.mk.injEq, List.not_mem_nil, or_false] at isMark
  rcases isMark with ⟨rfl, rfl⟩ | ⟨rfl, rfl⟩ | ⟨rfl, rfl⟩ | ⟨rfl, rfl⟩ | ⟨rfl, rfl⟩ | ⟨rfl, rfl⟩
  · exact ⟨4, by norm_num, le_rfl, rfl, rfl, fun _ => rfl, hexadecimal⟩
  · exact ⟨4, by norm_num, le_rfl, rfl, rfl, fun _ => rfl, hexadecimal⟩
  · exact ⟨3, by norm_num, by norm_num, rfl, rfl, fun _ => rfl, octal⟩
  · exact ⟨3, by norm_num, by norm_num, rfl, rfl, fun _ => rfl, octal⟩
  · exact ⟨1, le_rfl, by norm_num, rfl, rfl, fun _ => rfl, binary⟩
  · exact ⟨1, le_rfl, by norm_num, rfl, rfl, fun _ => rfl, binary⟩

theorem ofText_eq_accumulate {mark : Char} {base : Nat} (isMark : (mark, base) ∈ marks)
    {digits : List Char} (nonempty : digits ≠ []) (valid : ∀ c ∈ digits, digitValue c < base) :
    ofText (String.ofList ('0' :: mark :: digits)) = accumulate base (.zero false) digits := by
  obtain ⟨width, -, narrow, power, notBlank, marked, -⟩ := exists_width_of_mark isMark
  have atMost : base ≤ 16 := by
    rw [power]
    exact Nat.pow_le_pow_right two_pos narrow
  have noBlanks : ∀ c ∈ '0' :: mark :: digits, Text.isBlank c = false := by
    simp only [List.forall_mem_cons]
    exact ⟨rfl, notBlank, fun c present =>
      not_isBlank_of_digitValue_lt ((valid c present).trans_le atMost)⟩
  have someDigits : digits.isEmpty = false := by simpa using nonempty
  rw [ofText, String.toList_ofList, trim_eq_self noBlanks]
  simp only [ofTrimmed, List.isEmpty_cons, Bool.false_eq_true, if_false, marked, inBase, someDigits]

/-- Digits behind a base mark do not always give the rounding of the integer they denote. Up to the
last but one those of `0x200000000000011` are midway between two doubles and go down to the even
one. The last digit would take them up. -/
theorem marked_tie_lost :
    ¬ ∀ (mark : Char) (base : Nat) (digits : List Char), (mark, base) ∈ marks → digits ≠ [] →
      (∀ c ∈ digits, digitValue c < base) →
        (ofText (String.ofList ('0' :: mark :: digits))).IsRounding false
          (integerOf base digits) := by
  intro alwaysRounded
  have rounding := alwaysRounded 'x' 16 "200000000000011".toList (by decide) (by decide)
    (List.all_iff_forall_prop.mp (by decide))
  have denoted : integerOf 16 "200000000000011".toList = 2 ^ 57 + 17 := by decide
  have given : ofText (String.ofList ('0' :: 'x' :: "200000000000011".toList)) =
      .finite false (2 ^ 52) 5 (by decide) := by decide +kernel
  rw [denoted, given] at rounding
  have nearer := rounding.nearest (.finite false (2 ^ 52 + 1) 5 (by decide)) rfl
  rw [Double.magnitude_finite, Double.magnitude_finite] at nearer
  norm_num at nearer

/-- Digits behind a base mark give the rounding of those up to the cut, with zeros in the place of
the others. This is the rounding of the integer they all denote unless the digits up to the cut are
midway between two doubles, the lower one of them even, and another digit than zero follows; only
beyond the doubles does that not matter. -/
theorem ofText_marked {mark : Char} {base : Nat} (isMark : (mark, base) ∈ marks)
    {digits : List Char} (nonempty : digits ≠ []) (valid : ∀ c ∈ digits, digitValue c < base) :
    ∃ head tail, (∀ h t, IsCut base digits h t ↔ h = head ∧ t = tail) ∧
      (ofText (String.ofList ('0' :: mark :: digits))).IsRounding false
        (integerOf base head * base ^ tail.length : Nat) ∧
      ((ofText (String.ofList ('0' :: mark :: digits))).IsRounding false (integerOf base digits) ↔
        ¬ ((∃ c ∈ tail, digitValue c ≠ 0) ∧ Double.IsMidway (integerOf base head) ∧
          integerOf base digits < 2 ^ 1024)) := by
  rw [ofText_eq_accumulate isMark nonempty valid]
  obtain ⟨width, wide, narrow, rfl, -, -, read⟩ := exists_width_of_mark isMark
  obtain ⟨head, tail, cut, sum⟩ :=
    exists_cut_accumulate narrow digits fun c present => read c (valid c present)
  have only (h t : List Char) : IsCut (2 ^ width) digits h t ↔ h = head ∧ t = tail := by
    constructor
    · exact cut.unique
    · rintro ⟨rfl, rfl⟩
      exact cut
  refine ⟨head, tail, only, ?_, ?_⟩
  · rw [sum]
    exact Double.isRounding_ofNat _
  · rw [sum, Double.isRounding_nat_iff, eq_comm]
    obtain ⟨whole, reached, -⟩ := cut
    subst whole
    by_cases complete : tail = []
    · subst complete
      rw [List.append_nil, List.length_nil, pow_zero, mul_one]
      refine iff_of_true rfl ?_
      rintro ⟨⟨_, ⟨⟩, _⟩, _⟩
    · have large : 1 < 2 ^ width := Nat.one_lt_two_pow (by omega)
      have tailValid : ∀ c ∈ tail, digitValue c < 2 ^ width := fun c present =>
        valid c (List.mem_append_right head present)
      have below := integerOf_lt large tailValid
      rw [integerOf_append, ← integerOf_ne_zero_iff (by positivity : 0 < 2 ^ width)]
      rw [← pow_mul] at below ⊢
      exact Double.ofNat_eq_iff (reached complete) below

/-- A tie that the last digit should have broken: the number is the rounding of the digits with a
zero in its place, and not of the digits themselves. -/
theorem ofText_marked_midway :
    let digits := "20000000000001B".toList
    (∀ c ∈ digits, digitValue c < 16) ∧ IsCut 16 digits "20000000000001".toList ['B'] ∧
      (ofText "0X20000000000001B").IsRounding false (2 ^ 57 + 16 : Nat) ∧
        ¬ (ofText "0X20000000000001B").IsRounding false (2 ^ 57 + 27 : Nat) := by
  intro digits
  have valid : ∀ c ∈ digits, digitValue c < 16 := List.all_iff_forall_prop.mp (by decide)
  have cut : IsCut 16 digits "20000000000001".toList ['B'] := by
    refine ⟨rfl, by decide, fun earlier isPrefix proper => ?_⟩
    have initial : ∀ earlier ∈ "20000000000001".toList.inits, earlier ≠ "20000000000001".toList →
        integerOf 16 earlier < 2 ^ 53 := by decide
    exact initial earlier (List.mem_inits _ _ |>.mpr isPrefix) proper
  have headValue : integerOf 16 "20000000000001".toList = 2 ^ 53 + 1 := by decide
  have denoted : integerOf 16 digits = 2 ^ 57 + 27 := by decide
  have isMark : ('X', 16) ∈ marks := by decide
  obtain ⟨head, tail, only, rounding, correct⟩ := ofText_marked isMark (by decide) valid
  obtain ⟨rfl, rfl⟩ := (only _ _).mp cut
  rw [headValue] at rounding correct
  rw [denoted] at correct
  have midway : Double.IsMidway (2 ^ 53 + 1) := ⟨2 ^ 51, 0, by norm_num, by norm_num, by norm_num⟩
  have small (k : Nat) (many : 58 ≤ k) : 2 ^ 57 + 27 < 2 ^ k :=
    calc 2 ^ 57 + 27 < 2 ^ 58 := by norm_num
      _ ≤ 2 ^ k := Nat.pow_le_pow_right two_pos many
  refine ⟨valid, cut, rounding, fun all => ?_⟩
  exact correct.mp all ⟨⟨'B', List.mem_cons_self, by decide⟩, midway, small 1024 (by norm_num)⟩

end TreeQuery.Numeric
