import TreeQuery.Proofs.Text.Units
import TreeQuery.Static.Operator

/-!
# Relational operators

Two values have an order or none, whichever way round they are compared, and there is none only
where not-a-number takes part. The four relational operators read that order. Texts always have one
and are totally ordered by their units.
-/

namespace TreeQuery

/-! ## Numbers -/

namespace Double

theorem compare?_swap (x y : Double) : y.compare? x = (x.compare? y).map Ordering.swap := by
  cases x with
  | nan => cases y <;> rfl
  | infinity s =>
      cases y with
      | nan => rfl
      | infinity t => cases s <;> cases t <;> rfl
      | finite t n f canonical => cases s <;> rfl
  | finite s m e canonical =>
      cases y with
      | nan => rfl
      | infinity t => cases t <;> rfl
      | finite t n f canonical' =>
          rw [compare?, compare?, Option.map_some, Int.min_comm f e]
          exact congrArg some Std.OrientedOrd.eq_swap

theorem compare?_eq_none_iff {x y : Double} :
    x.compare? y = none ↔ x.isNaN = true ∨ y.isNaN = true := by
  cases x <;> cases y <;> simp [compare?, isNaN]

end Double

namespace Primitive

/-! ## Values -/

theorem compare?_text (a b : String) :
    (text a).compare? (text b) = some (Text.compareUnits a b) :=
  rfl

theorem compare?_of_not_texts {a b : Primitive} (notTexts : ¬ (a.isText = true ∧ b.isText = true)) :
    a.compare? b = a.toNumber.compare? b.toNumber := by
  rw [compare?]
  rintro s t rfl rfl
  exact notTexts ⟨rfl, rfl⟩

theorem exists_texts {a b : Primitive} (texts : a.isText = true ∧ b.isText = true) :
    ∃ s t, a = text s ∧ b = text t := by
  obtain ⟨left, right⟩ := texts
  cases a with
  | text s =>
      cases b with
      | text t => exact ⟨s, t, rfl, rfl⟩
      | _ => cases right
  | _ => cases left

theorem compare?_swap (a b : Primitive) : b.compare? a = (a.compare? b).map Ordering.swap := by
  by_cases texts : a.isText = true ∧ b.isText = true
  · obtain ⟨s, t, rfl, rfl⟩ := exists_texts texts
    exact congrArg some Std.OrientedCmp.eq_swap
  · rw [compare?_of_not_texts texts, compare?_of_not_texts fun swapped => texts swapped.symm]
    exact Double.compare?_swap _ _

theorem compare?_eq_none_iff (a b : Primitive) :
    a.compare? b = none ↔ ¬ (a.isText = true ∧ b.isText = true) ∧
      (a.toNumber.isNaN = true ∨ b.toNumber.isNaN = true) := by
  by_cases texts : a.isText = true ∧ b.isText = true
  · obtain ⟨s, t, rfl, rfl⟩ := exists_texts texts
    exact iff_of_false nofun fun notTexts => notTexts.1 texts
  · rw [compare?_of_not_texts texts, Double.compare?_eq_none_iff, and_iff_right texts]

/-! ## Operators -/

/-- What the four relational operators give for two values. -/
structure Answers (a b : Primitive) (less lessEq greater greaterEq : Bool) : Prop where
  less : BinaryOperator.less.apply? a b = some (.bool less)
  lessEq : BinaryOperator.lessEq.apply? a b = some (.bool lessEq)
  greater : BinaryOperator.greater.apply? a b = some (.bool greater)
  greaterEq : BinaryOperator.greaterEq.apply? a b = some (.bool greaterEq)

theorem answers {a b : Primitive} {order : Option Ordering} (compared : a.compare? b = order) :
    Answers a b (order.any [.lt].contains) (order.any [.lt, .eq].contains)
      (order.any [.gt].contains) (order.any [.gt, .eq].contains) := by
  subst compared
  exact ⟨rfl, rfl, rfl, rfl⟩

/-- Reading the order of two values is reading the opposite order the other way round. -/
theorem ordered_swap (orders : List Ordering) (a b : Primitive) :
    ordered orders a b = ordered (orders.map Ordering.swap) b a := by
  have kept (order : Ordering) :
      (orders.map Ordering.swap).contains order.swap = orders.contains order := by
    rw [Bool.eq_iff_iff, List.contains_iff_mem, List.contains_iff_mem, List.mem_map]
    constructor
    · rintro ⟨other, present, same⟩
      rwa [← Ordering.swap_inj.mp same]
    · intro present
      exact ⟨order, present, rfl⟩
  rw [ordered, ordered, compare?_swap a b, Option.any_map]
  simp only [kept]

/-- Two values are compared the same both ways round. They have no order exactly where they are not
both texts and one of them converts to not-a-number. The relational operators are then all false;
otherwise just one of less, equal and greater holds. On texts the order is total, only equal texts
are equal in it, and it is the order by scalar values except across the planes. -/
theorem relational_coherent :
    (∀ a b : Primitive,
      b.compare? a = (a.compare? b).map Ordering.swap ∧
      (a.compare? b = none ↔ ¬ (a.isText = true ∧ b.isText = true) ∧
        (a.toNumber.isNaN = true ∨ b.toNumber.isNaN = true)) ∧
      BinaryOperator.less.apply? a b = BinaryOperator.greater.apply? b a ∧
      BinaryOperator.lessEq.apply? a b = BinaryOperator.greaterEq.apply? b a ∧
      (a.compare? b = some .lt ∧ Answers a b true true false false ∨
        a.compare? b = some .eq ∧ Answers a b false true false true ∨
        a.compare? b = some .gt ∧ Answers a b false false true true ∨
        a.compare? b = none ∧ Answers a b false false false false)) ∧
    (IsLinearOrder String fun s t => ((text s).compare? (text t)).any Ordering.isLE = true) ∧
    ∀ s t : String,
      ((text s).compare? (text t) = some .eq ↔ s = t) ∧
      ((text s).compare? (text t) ≠ some (Text.compareScalars s t) ↔
        ∃ c d, Text.FirstDifference s.toList t.toList c d ∧
          (Text.AcrossPlanes c d ∨ Text.AcrossPlanes d c)) := by
  refine ⟨fun a b => ⟨compare?_swap a b, compare?_eq_none_iff a b,
    congrArg some (ordered_swap _ a b), congrArg some (ordered_swap _ a b), ?_⟩,
    Text.isLinearOrder_compareUnits, fun s t => ⟨?_, ?_⟩⟩
  · cases compared : a.compare? b with
    | none => exact Or.inr (Or.inr (Or.inr ⟨rfl, answers compared⟩))
    | some order =>
        cases order with
        | lt => exact Or.inl ⟨rfl, answers compared⟩
        | eq => exact Or.inr (Or.inl ⟨rfl, answers compared⟩)
        | gt => exact Or.inr (Or.inr (Or.inl ⟨rfl, answers compared⟩))
  · rw [compare?_text, Option.some.injEq]
    exact Std.LawfulEqCmp.compare_eq_iff_eq
  · rw [compare?_text, ne_eq, Option.some.injEq]
    exact Text.compareUnits_ne_iff s t

end Primitive

end TreeQuery
