import TreeQuery.Proofs.Number.Recovery

/-!
# Numbers survive their text

The text of a number reads back as that number, whichever of the layouts it is written in.
-/

namespace TreeQuery

namespace Double

theorem neg_read (decimal : Decimal) (negative : Bool) :
    (decimal.read negative).neg = decimal.read (!negative) :=
  neg_ofDecimal negative _ _

/-- A number equals itself unless it is not-a-number. -/
theorem same_self {x : Double} (isNumber : x.isNaN = false) : x.same x = true := by
  cases x with
  | nan => cases isNumber
  | infinity negative => simp [same, compare?]
  | finite negative significand exponent canonical => simp [same, compare?]

theorem isZero_finite (negative : Bool) {significand : Nat} {exponent : Int}
    (canonical : Canonical significand exponent) :
    (finite negative significand exponent canonical).isZero = decide (significand = 0) := by
  cases significand <;> rfl

/-- The zeros are the only numbers without a magnitude. -/
theorem eq_zero_of_isZero {x : Double} (isZero : x.isZero = true) :
    ∃ negative, x = zero negative := by
  cases x with
  | nan => cases isZero
  | infinity _ => cases isZero
  | finite negative significand exponent canonical =>
      rw [isZero_finite, decide_eq_true_eq] at isZero
      subst isZero
      obtain rfl : exponent = -1074 := by
        obtain ⟨-, -, -, normal | least⟩ := canonical
        · omega
        · exact least
      exact ⟨negative, rfl⟩

theorem same_zeros (s t : Bool) : (zero s).same (zero t) = true := by
  cases s <;> cases t <;> rfl

end Double

namespace Numeric

theorem ofText_zero : ofText (String.ofList ['0']) = .zero false := by
  have noBlanks : ∀ c ∈ ['0'], Text.isBlank c = false := List.forall_mem_singleton.mpr rfl
  rw [ofText, String.toList_ofList, trim_eq_self noBlanks]
  rfl

/-- Every layout of a number other than zero reads back as the number. -/
theorem ofText_finite (layout : Layout) (negative : Bool) {significand : Nat} {exponent : Int}
    (canonical : Double.Canonical significand exponent) (nonzero : significand ≠ 0) :
    ofText (String.ofList (layout.finite negative significand exponent canonical)) =
      .finite negative significand exponent canonical := by
  obtain ⟨proper, reads⟩ := Decimal.shortest_reads_back canonical nonzero
  rw [Layout.finite, if_neg nonzero, ofText_magnitude layout proper]
  cases negative with
  | false => exact reads
  | true =>
      have negated := Double.neg_read (Decimal.shortest significand exponent canonical) false
      rw [reads] at negated
      exact negated.symm

/-- The text of a finite number is the decimal chosen for it in the layout of the language. -/
theorem numberText_finite (negative : Bool) {significand : Nat} {exponent : Int}
    (canonical : Double.Canonical significand exponent) :
    numberText (.finite negative significand exponent canonical) =
      numberLayout.finite negative significand exponent canonical := by
  rw [numberText, Layout.finite]
  by_cases zero : significand = 0
  · rw [if_pos zero, if_pos zero]
  · rw [if_neg zero, if_neg zero, Decimal.recover_printed canonical zero]

/-- The text of a number reads back as the number, a zero without its sign. -/
theorem ofText_numberText (x : Double) :
    ofText (String.ofList (numberText x)) = if x.isZero then .zero false else x := by
  cases x with
  | nan => rfl
  | infinity negative => cases negative <;> rfl
  | finite negative significand exponent canonical =>
      rw [Double.isZero_finite, numberText_finite]
      by_cases zero : significand = 0
      · rw [Layout.finite, if_pos zero, decide_eq_true zero, if_pos rfl]
        exact ofText_zero
      · rw [decide_eq_false zero, ofText_finite numberLayout negative canonical zero]
        rfl

end Numeric

/-- Reading the text of a number undoes writing it: zeros lose their sign, and all other numbers
come back as they are. It does so for every layout and every choice of digits that round to the
number. Numbers with one text are equal or both not-a-number. -/
theorem Primitive.toNumber_toText :
    (∀ x : Double, (Primitive.text (Primitive.number x).toText).toNumber =
      if x.isZero then .zero false else x) ∧
    (∀ (layout : Layout) (decimal : Decimal) (negative : Bool), decimal.Proper →
      (Primitive.text (String.ofList
        ((if negative then ['-'] else []) ++ layout.magnitude decimal))).toNumber =
          decimal.read negative) ∧
    ∀ x y : Double, (Primitive.number x).toText = (Primitive.number y).toText →
      x.same y = true ∨ (x.isNaN = true ∧ y.isNaN = true) := by
  refine ⟨Numeric.ofText_numberText, ?_, ?_⟩
  · intro layout decimal negative proper
    exact Numeric.ofText_magnitude layout proper negative
  · intro x y sameText
    have sameNumber := congrArg Numeric.ofText sameText
    simp only [toText, Numeric.ofText_numberText] at sameNumber
    cases xZero : x.isZero with
    | true =>
        cases yZero : y.isZero with
        | true =>
            obtain ⟨s, rfl⟩ := Double.eq_zero_of_isZero xZero
            obtain ⟨t, rfl⟩ := Double.eq_zero_of_isZero yZero
            exact Or.inl (Double.same_zeros s t)
        | false =>
            obtain rfl : Double.zero false = y := by simpa [xZero, yZero] using sameNumber
            cases yZero
    | false =>
        cases yZero : y.isZero with
        | true =>
            obtain rfl : x = Double.zero false := by simpa [xZero, yZero] using sameNumber
            cases xZero
        | false =>
            obtain rfl : x = y := by simpa [xZero, yZero] using sameNumber
            cases isNaN : x.isNaN with
            | true => exact Or.inr ⟨rfl, rfl⟩
            | false => exact Or.inl (Double.same_self isNaN)

/-- A number beyond the positional layout, and the two zeros. -/
theorem Primitive.toNumber_text_beyond_positional :
    (Decimal.mk ['1', '5'] 22).Proper ∧
      (Primitive.text "-1.5e+21").toNumber = (Decimal.mk ['1', '5'] 22).read true ∧
        (Primitive.number (.zero true)).toText = (Primitive.number (.zero false)).toText ∧
          ((Double.zero true).same (.zero false) = true ∨
            ((Double.zero true).isNaN = true ∧ (Double.zero false).isNaN = true)) := by
  have proper : (Decimal.mk ['1', '5'] 22).Proper := ⟨nofun, by simp⟩
  have text : String.ofList (['-'] ++ numberLayout.magnitude ⟨['1', '5'], 22⟩) = "-1.5e+21" := rfl
  have sameText : (Primitive.number (.zero true)).toText =
      (Primitive.number (.zero false)).toText := by
    simp [toText, numberText, Double.zero, numberLayout]
  refine ⟨proper, ?_, sameText, toNumber_toText.2.2 (.zero true) (.zero false) sameText⟩
  rw [← text]
  exact toNumber_toText.2.1 numberLayout ⟨['1', '5'], 22⟩ true proper

end TreeQuery
