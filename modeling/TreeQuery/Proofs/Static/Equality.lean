import TreeQuery.Proofs.Number.Equality
import TreeQuery.Proofs.Static.Relational

/-!
# Loose equality

Loose equality is given by rules that rewrite a truth value on either side to a number. Every pair
of values comes to one verdict by them, after at most two rewritings. The verdict does not depend on
which side a value is on, and for values other than `null` and `undefined` it says whether the order
of the relational operators has them equal.
-/

namespace TreeQuery.Primitive

/-- What the rules of loose equality say about two values, in the order in which they are tried: a
truth value is looked at only where neither side is `null` or `undefined`, the right one only where
the left side is none. -/
inductive LooseVerdict : Primitive → Primitive → Bool → Prop where
  | bothNullish {a b : Primitive} (left : a.isNullish = true) (right : b.isNullish = true) :
      LooseVerdict a b true
  | leftNullish {a b : Primitive} (left : a.isNullish = true) (right : b.isNullish = false) :
      LooseVerdict a b false
  | rightNullish {a b : Primitive} (left : a.isNullish = false) (right : b.isNullish = true) :
      LooseVerdict a b false
  | numberText (x : Double) (t : String) :
      LooseVerdict (number x) (text t) (x.same (Numeric.ofText t))
  | textNumber (s : String) (y : Double) :
      LooseVerdict (text s) (number y) ((Numeric.ofText s).same y)
  | leftBool {value verdict : Bool} {b : Primitive} (right : b.isNullish = false)
      (rewritten : LooseVerdict (number (.ofNat value.toNat)) b verdict) :
      LooseVerdict (bool value) b verdict
  | rightBool {value verdict : Bool} {a : Primitive} (left : a.isNullish = false)
      (notBool : ∀ other, a ≠ bool other)
      (rewritten : LooseVerdict a (number (.ofNat value.toNat)) verdict) :
      LooseVerdict a (bool value) verdict
  | numbers (x y : Double) : LooseVerdict (number x) (number y) (strictEq (number x) (number y))
  | texts (s t : String) : LooseVerdict (text s) (text t) (strictEq (text s) (text t))

theorem looseEq_of_nullish {a b : Primitive} (nullish : a.isNullish = true ∨ b.isNullish = true) :
    a.looseEq b = (a.isNullish && b.isNullish) := by
  rw [looseEq, if_pos (by simpa using nullish)]

theorem isNullish_boolAsNumber (a : Primitive) : a.boolAsNumber.isNullish = a.isNullish := by
  cases a <;> rfl

theorem boolAsNumber_boolAsNumber (a : Primitive) :
    a.boolAsNumber.boolAsNumber = a.boolAsNumber := by
  cases a <;> rfl

theorem looseEq_boolAsNumber (a b : Primitive) :
    a.boolAsNumber.looseEq b.boolAsNumber = a.looseEq b := by
  simp only [looseEq, isNullish_boolAsNumber, boolAsNumber_boolAsNumber]

theorem LooseVerdict.eq_looseEq {a b : Primitive} {verdict : Bool}
    (rules : LooseVerdict a b verdict) : verdict = a.looseEq b := by
  induction rules with
  | bothNullish left right => rw [looseEq_of_nullish (.inl left), left, right]; rfl
  | leftNullish left right => rw [looseEq_of_nullish (.inl left), left, right]; rfl
  | rightNullish left right => rw [looseEq_of_nullish (.inr right), left, right]; rfl
  | numberText x t => rfl
  | textNumber s y => rfl
  | @leftBool value verdict b right rewritten induction =>
      rw [induction, ← looseEq_boolAsNumber, ← looseEq_boolAsNumber (bool value)]
      rfl
  | @rightBool value verdict a left notBool rewritten induction =>
      rw [induction, ← looseEq_boolAsNumber, ← looseEq_boolAsNumber a]
      rfl
  | numbers x y => rfl
  | texts s t => rfl

/-- A truth value becomes a number, and numbers and texts are compared at once. -/
theorem exists_looseVerdict (a b : Primitive) : ∃ verdict, LooseVerdict a b verdict := by
  have numberLeft (x : Double) : ∃ verdict, LooseVerdict (number x) b verdict := by
    cases b with
    | undefined => exact ⟨_, .rightNullish rfl rfl⟩
    | null => exact ⟨_, .rightNullish rfl rfl⟩
    | bool value => exact ⟨_, .rightBool rfl nofun (.numbers x _)⟩
    | number y => exact ⟨_, .numbers x y⟩
    | text t => exact ⟨_, .numberText x t⟩
  cases nullish : b.isNullish with
  | true =>
      cases left : a.isNullish with
      | true => exact ⟨_, .bothNullish left nullish⟩
      | false => exact ⟨_, .rightNullish left nullish⟩
  | false =>
      cases a with
      | undefined => exact ⟨_, .leftNullish rfl nullish⟩
      | null => exact ⟨_, .leftNullish rfl nullish⟩
      | bool value =>
          obtain ⟨verdict, rewritten⟩ := numberLeft (.ofNat value.toNat)
          exact ⟨verdict, .leftBool nullish rewritten⟩
      | number x => exact numberLeft x
      | text s =>
          cases b with
          | undefined => cases nullish
          | null => cases nullish
          | bool value => exact ⟨_, .rightBool rfl nofun (.textNumber s _)⟩
          | number y => exact ⟨_, .textNumber s y⟩
          | text t => exact ⟨_, .texts s t⟩

theorem looseVerdict_iff {a b : Primitive} {verdict : Bool} :
    LooseVerdict a b verdict ↔ verdict = a.looseEq b := by
  refine ⟨LooseVerdict.eq_looseEq, ?_⟩
  rintro rfl
  obtain ⟨verdict, rules⟩ := exists_looseVerdict a b
  rwa [← rules.eq_looseEq]

/-! ## Loose equality and the order -/

theorem looseEq_of_texts (s t : String) : (text s).looseEq (text t) = (s == t) :=
  rfl

/-- Beside `null` and `undefined`, and unless both are texts, values are loosely equal where the
numbers that they convert to are equal. -/
theorem looseEq_of_not_texts {a b : Primitive} (left : a.isNullish = false)
    (right : b.isNullish = false) (notTexts : ¬ (a.isText = true ∧ b.isText = true)) :
    a.looseEq b = a.toNumber.same b.toNumber := by
  rw [looseEq, if_neg (by simp [left, right])]
  cases a with
  | undefined => cases left
  | null => cases left
  | text s =>
      cases b with
      | undefined => cases right
      | null => cases right
      | text t => exact absurd ⟨rfl, rfl⟩ notTexts
      | _ => rfl
  | _ =>
      cases b with
      | undefined => cases right
      | null => cases right
      | _ => rfl

theorem compare?_eq_iff (a b : Primitive) :
    a.compare? b = some .eq ↔
      if a.isText = true ∧ b.isText = true then a = b
      else a.toNumber.isNaN = false ∧
        (a.toNumber = b.toNumber ∨ a.toNumber.isZero = true ∧ b.toNumber.isZero = true) := by
  by_cases texts : a.isText = true ∧ b.isText = true
  · obtain ⟨s, t, rfl, rfl⟩ := exists_texts texts
    rw [if_pos texts, compare?_text, Option.some.injEq, text.injEq]
    exact Std.LawfulEqCmp.compare_eq_iff_eq
  · rw [if_neg texts, compare?_of_not_texts texts, ← Double.same_iff, Double.same, beq_iff_eq]

theorem looseEq_iff_compare? {a b : Primitive} (left : a.isNullish = false)
    (right : b.isNullish = false) : a.looseEq b = true ↔ a.compare? b = some .eq := by
  by_cases texts : a.isText = true ∧ b.isText = true
  · obtain ⟨s, t, rfl, rfl⟩ := exists_texts texts
    rw [compare?_eq_iff, if_pos texts, looseEq_of_texts, beq_iff_eq, text.injEq]
  · rw [looseEq_of_not_texts left right texts, compare?_of_not_texts texts, Double.same, beq_iff_eq]

theorem looseEq_comm (a b : Primitive) : a.looseEq b = b.looseEq a := by
  by_cases nullish : a.isNullish = true ∨ b.isNullish = true
  · rw [looseEq_of_nullish nullish, looseEq_of_nullish nullish.symm, Bool.and_comm]
  · obtain ⟨left, right⟩ := not_or.mp nullish
    rw [Bool.not_eq_true] at left right
    rw [Bool.eq_iff_iff, looseEq_iff_compare? left right, looseEq_iff_compare? right left,
      compare?_swap a b]
    cases a.compare? b with
    | none => simp
    | some order => cases order <;> simp

theorem looseEq_of_strictEq {a b : Primitive} (strict : a.strictEq b = true) :
    a.looseEq b = true := by
  cases a with
  | undefined =>
      cases b with
      | undefined => rfl
      | _ => cases strict
  | null =>
      cases b with
      | null => rfl
      | _ => cases strict
  | bool value =>
      cases b with
      | bool other =>
          obtain rfl : value = other := beq_iff_eq.mp strict
          cases value <;> rfl
      | _ => cases strict
  | number x =>
      cases b with
      | number y => exact strict
      | _ => cases strict
  | text s =>
      cases b with
      | text t => exact strict
      | _ => cases strict

/-- The rules of loose equality come to exactly one verdict about any two values, the same whichever
side each is on. Strictly equal values are loosely equal. A value that is `null` or `undefined` is
loosely equal just to another one of these, and beside them the verdict is that of the order: texts
are equal when they are one text, and other values when neither converts to not-a-number and they
convert to one number or to two zeros. -/
theorem looseEq_coherent (a b : Primitive) :
    (∀ verdict, LooseVerdict a b verdict ↔ verdict = a.looseEq b) ∧
    a.looseEq b = b.looseEq a ∧
    (a.strictEq b = true → a.looseEq b = true) ∧
    (a.isNullish = true ∨ b.isNullish = true →
      (a.looseEq b = true ↔ a.isNullish = true ∧ b.isNullish = true)) ∧
    (a.isNullish = false ∧ b.isNullish = false →
      (a.looseEq b = true ↔ a.compare? b = some .eq) ∧
      (a.compare? b = some .eq ↔
        if a.isText = true ∧ b.isText = true then a = b
        else a.toNumber.isNaN = false ∧
          (a.toNumber = b.toNumber ∨ a.toNumber.isZero = true ∧ b.toNumber.isZero = true))) := by
  refine ⟨fun _ => looseVerdict_iff, looseEq_comm a b, looseEq_of_strictEq, fun nullish => ?_,
    fun ⟨left, right⟩ => ⟨looseEq_iff_compare? left right, compare?_eq_iff a b⟩⟩
  rw [looseEq_of_nullish nullish, Bool.and_eq_true]

/-- `true` loosely equals the text of a one in base sixteen between blanks, and `null` does not
equal the zero that it converts to. -/
theorem looseEq_coherent_mixed :
    (bool true).looseEq (text " 0x1 ") = (text " 0x1 ").looseEq (bool true) ∧
      (number (.zero true)).looseEq (number (.zero false)) = true ∧
      (null.looseEq (number (.zero false)) = true ↔ False) ∧
      ((bool true).looseEq (text " 0x1 ") = true ↔
        (bool true).compare? (text " 0x1 ") = some .eq) ∧
      (bool true).compare? (text " 0x1 ") = some .eq := by
  have mixed := looseEq_coherent (bool true) (text " 0x1 ")
  have zeros := looseEq_coherent (number (.zero true)) (number (.zero false))
  have absent := looseEq_coherent null (number (.zero false))
  obtain ⟨asOrder, isEqual⟩ := mixed.2.2.2.2 ⟨rfl, rfl⟩
  refine ⟨mixed.2.1, zeros.2.2.1 rfl, (absent.2.2.2.1 (.inl rfl)).trans (by simp [isNullish]),
    asOrder, isEqual.mpr ?_⟩
  rw [if_neg (by simp [isText])]
  decide +kernel

end TreeQuery.Primitive
