import Mathlib.Order.Defs.Unbundled
import Mathlib.Tactic.SplitIfs
import TreeQuery.Text.Units

/-!
# The order by units as an order by characters

No character's units begin another's, so the order by units is decided at the first character where
two texts differ. It puts the characters beyond the basic plane in front of the last ones of that
plane and agrees with the order of scalar values everywhere else.
-/

namespace TreeQuery.Text

/-- The place of a character in the order by units. -/
def rank (c : Char) : Nat :=
  if 0xe000 ≤ c.toNat ∧ c.toNat ≤ 0xffff then c.toNat + 0x110000 else c.toNat

/-- The order of two texts by the scalar values of their characters. -/
def compareScalars (left right : String) : Ordering :=
  List.compareLex (compareOn Char.toNat) left.toList right.toList

/-- The first character is beyond the basic plane and the second is one of the last in it. -/
def AcrossPlanes (c d : Char) : Prop :=
  0xffff < c.toNat ∧ 0xe000 ≤ d.toNat ∧ d.toNat ≤ 0xffff

theorem toNat_valid (c : Char) :
    c.toNat < 0xd800 ∨ (0xdfff < c.toNat ∧ c.toNat < 0x110000) :=
  c.valid

/-! ## Characters -/

theorem rank_injective : Function.Injective rank := by
  intro c d same
  have valid := toNat_valid c
  have valid' := toNat_valid d
  apply Char.toNat_inj.mp
  rw [rank, rank] at same
  split_ifs at same <;> omega

theorem units_of_basic {c : Char} (basic : c.toNat < 0x10000) : units c = [c.toNat] :=
  if_pos basic

theorem units_of_beyond {c : Char} (beyond : ¬ c.toNat < 0x10000) :
    units c = [0xd800 + (c.toNat - 0x10000) / 0x400, 0xdc00 + (c.toNat - 0x10000) % 0x400] :=
  if_neg beyond

theorem compareLex_of_head {u v : Nat} (less : u < v) (x y : List Nat) :
    List.compareLex compare (u :: x) (v :: y) = .lt := by
  rw [List.compareLex_cons_cons, Nat.compare_eq_lt.mpr less, Ordering.lt_then]

theorem compareLex_append_left (l x y : List Nat) :
    List.compareLex compare (l ++ x) (l ++ y) = List.compareLex compare x y := by
  induction l with
  | nil => rfl
  | cons u l induction =>
      rw [List.cons_append, List.cons_append, List.compareLex_cons_cons,
        Nat.compare_eq_eq.mpr rfl, Ordering.eq_then, induction]

/-- The first unit decides unless both characters are beyond the basic plane. A pair stands between
the single units there, for its first unit is none of them. -/
theorem compareLex_units_of_lt {c d : Char} (less : rank c < rank d) (x y : List Nat) :
    List.compareLex compare (units c ++ x) (units d ++ y) = .lt := by
  have valid := toNat_valid c
  have valid' := toNat_valid d
  rw [rank, rank] at less
  by_cases basic : c.toNat < 0x10000
  · rw [units_of_basic basic]
    by_cases basic' : d.toNat < 0x10000
    · rw [units_of_basic basic']
      exact compareLex_of_head (by split_ifs at less <;> omega) _ _
    · rw [units_of_beyond basic']
      exact compareLex_of_head (by split_ifs at less <;> omega) _ _
  · rw [units_of_beyond basic]
    rw [if_neg (by omega)] at less
    by_cases basic' : d.toNat < 0x10000
    · rw [units_of_basic basic']
      exact compareLex_of_head (by split_ifs at less <;> omega) _ _
    · rw [units_of_beyond basic']
      rw [if_neg (by omega)] at less
      by_cases high : (c.toNat - 0x10000) / 0x400 = (d.toNat - 0x10000) / 0x400
      · rw [high]
        exact (compareLex_append_left [_] _ _).trans (compareLex_of_head (by omega) x y)
      · exact compareLex_of_head (by omega) _ _

/-- The units of two characters differ at a place that both have, unless the characters are the
same. -/
theorem compareLex_units (c d : Char) (x y : List Nat) :
    List.compareLex compare (units c ++ x) (units d ++ y) =
      (compare (rank c) (rank d)).then (List.compareLex compare x y) := by
  rcases Nat.lt_trichotomy (rank c) (rank d) with less | same | greater
  · rw [compareLex_units_of_lt less, Nat.compare_eq_lt.mpr less, Ordering.lt_then]
  · obtain rfl : c = d := rank_injective same
    rw [compareLex_append_left, Nat.compare_eq_eq.mpr rfl, Ordering.eq_then]
  · have swapped : List.compareLex compare (units c ++ x) (units d ++ y) =
        (List.compareLex compare (units d ++ y) (units c ++ x)).swap := Std.OrientedCmp.eq_swap
    rw [swapped, compareLex_units_of_lt greater, Nat.compare_eq_gt.mpr greater, Ordering.gt_then,
      Ordering.swap_lt]

theorem units_ne_nil (c : Char) : units c ≠ [] := by
  rw [units]
  split <;> nofun

/-- Where the two orders of characters part. -/
theorem compareOn_rank_ne_iff (c d : Char) :
    compareOn rank c d ≠ compareOn Char.toNat c d ↔ AcrossPlanes c d ∨ AcrossPlanes d c := by
  have valid := toNat_valid c
  have valid' := toNat_valid d
  simp only [compareOn, Nat.compare_eq_ite_lt, rank, AcrossPlanes]
  split_ifs <;> simp <;> omega

instance lawfulEqCmp_rank : Std.LawfulEqCmp (compareOn rank) where
  eq_of_compare same := rank_injective (Nat.compare_eq_eq.mp same)

instance lawfulEqCmp_toNat : Std.LawfulEqCmp (compareOn Char.toNat) where
  eq_of_compare same := Char.toNat_inj.mp (Nat.compare_eq_eq.mp same)

/-! ## Texts -/

/-- The order by units is the order by the ranks of the characters. -/
theorem compareLex_flatMap_units (l r : List Char) :
    List.compareLex compare (l.flatMap units) (r.flatMap units) =
      List.compareLex (compareOn rank) l r := by
  induction l generalizing r with
  | nil =>
      cases r with
      | nil => rfl
      | cons d r =>
          obtain ⟨u, rest, someUnits⟩ := List.exists_cons_of_ne_nil (units_ne_nil d)
          rw [List.flatMap_cons, someUnits]
          rfl
  | cons c l induction =>
      cases r with
      | nil =>
          obtain ⟨u, rest, someUnits⟩ := List.exists_cons_of_ne_nil (units_ne_nil c)
          rw [List.flatMap_cons, someUnits]
          rfl
      | cons d r =>
          rw [List.flatMap_cons, List.flatMap_cons, compareLex_units, induction,
            List.compareLex_cons_cons]
          rfl

theorem compareUnits_eq (left right : String) :
    compareUnits left right = List.compareLex (compareOn rank) left.toList right.toList :=
  compareLex_flatMap_units _ _

instance transCmp_compareUnits : Std.TransCmp compareUnits :=
  inferInstanceAs (Std.TransCmp (compareOn unitsOf))

instance lawfulEqCmp_compareUnits : Std.LawfulEqCmp compareUnits where
  eq_of_compare same := by
    rw [compareUnits_eq] at same
    exact String.toList_injective (Std.LawfulEqCmp.eq_of_compare same)

/-- The order by units is total, and no two texts share a place in it. -/
theorem isLinearOrder_compareUnits :
    IsLinearOrder String fun left right => (compareUnits left right).isLE = true where
  refl _ := Std.ReflCmp.isLE_rfl
  trans _ _ _ := Std.TransCmp.isLE_trans
  antisymm _ _ below above :=
    Std.LawfulEqCmp.eq_of_compare (Std.OrientedCmp.isLE_antisymm below above)
  total left right := by
    have swapped : compareUnits right left = (compareUnits left right).swap :=
      Std.OrientedCmp.eq_swap
    rw [swapped]
    cases compareUnits left right with
    | lt => exact Or.inl rfl
    | eq => exact Or.inl rfl
    | gt => exact Or.inr rfl

/-- The characters `c` and `d` are the first at which the texts differ. -/
def FirstDifference (left right : List Char) (c d : Char) : Prop :=
  c ≠ d ∧ ∃ common x y, left = common ++ c :: x ∧ right = common ++ d :: y

theorem firstDifference_cons_self {c : Char} {l r : List Char} {a b : Char} :
    FirstDifference (c :: l) (c :: r) a b ↔ FirstDifference l r a b := by
  constructor
  · rintro ⟨differ, common, x, y, left, right⟩
    cases common with
    | nil =>
        injection left with first
        injection right with first'
        exact absurd (first.symm.trans first') differ
    | cons k common =>
        injection left with _ left
        injection right with _ right
        exact ⟨differ, common, x, y, left, right⟩
  · rintro ⟨differ, common, x, y, rfl, rfl⟩
    exact ⟨differ, c :: common, x, y, rfl, rfl⟩

theorem firstDifference_cons_of_ne {c d : Char} (differ : c ≠ d) {l r : List Char} {a b : Char} :
    FirstDifference (c :: l) (d :: r) a b ↔ a = c ∧ b = d := by
  constructor
  · rintro ⟨-, common, x, y, left, right⟩
    cases common with
    | nil =>
        injection left with first
        injection right with first'
        exact ⟨first.symm, first'.symm⟩
    | cons k common =>
        injection left with first
        injection right with first'
        exact absurd (first.trans first'.symm) differ
  · rintro ⟨rfl, rfl⟩
    exact ⟨differ, [], l, r, rfl, rfl⟩

theorem not_firstDifference_nil_left {r : List Char} {a b : Char} : ¬ FirstDifference [] r a b := by
  rintro ⟨-, common, x, y, left, -⟩
  exact List.append_ne_nil_of_right_ne_nil common (List.cons_ne_nil a x) left.symm

theorem not_firstDifference_nil_right {l : List Char} {a b : Char} :
    ¬ FirstDifference l [] a b := by
  rintro ⟨-, common, x, y, -, right⟩
  exact List.append_ne_nil_of_right_ne_nil common (List.cons_ne_nil b y) right.symm

/-- Two orders of texts part where the orders of the first different characters do. -/
theorem compareLex_ne_iff {f g : Char → Char → Ordering} [Std.LawfulEqCmp f] [Std.LawfulEqCmp g]
    (l r : List Char) :
    List.compareLex f l r ≠ List.compareLex g l r ↔
      ∃ c d, FirstDifference l r c d ∧ f c d ≠ g c d := by
  induction l generalizing r with
  | nil =>
      refine iff_of_false (fun differ => ?_) ?_
      · cases r <;> exact differ rfl
      · rintro ⟨a, b, first, -⟩
        exact not_firstDifference_nil_left first
  | cons c l induction =>
      cases r with
      | nil =>
          refine iff_of_false (fun differ => differ rfl) ?_
          rintro ⟨a, b, first, -⟩
          exact not_firstDifference_nil_right first
      | cons d r =>
          rw [List.compareLex_cons_cons, List.compareLex_cons_cons]
          by_cases same : c = d
          · subst same
            simp only [Std.ReflCmp.compare_self, Ordering.eq_then, firstDifference_cons_self,
              induction]
          · have decided (h : Char → Char → Ordering) [Std.LawfulEqCmp h] (o : Ordering) :
                (h c d).then o = h c d := by
              cases order : h c d with
              | lt => rfl
              | gt => rfl
              | eq => exact absurd (Std.LawfulEqCmp.eq_of_compare order) same
            rw [decided f, decided g]
            constructor
            · intro differ
              exact ⟨c, d, (firstDifference_cons_of_ne same).mpr ⟨rfl, rfl⟩, differ⟩
            · rintro ⟨a, b, first, differ⟩
              obtain ⟨rfl, rfl⟩ := (firstDifference_cons_of_ne same).mp first
              exact differ

/-- The order by units differs from the order by scalar values exactly where the first different
characters are one beyond the basic plane and one of the last in it. -/
theorem compareUnits_ne_iff (left right : String) :
    compareUnits left right ≠ compareScalars left right ↔
      ∃ c d, FirstDifference left.toList right.toList c d ∧
        (AcrossPlanes c d ∨ AcrossPlanes d c) := by
  rw [compareUnits_eq, compareScalars, compareLex_ne_iff]
  simp only [compareOn_rank_ne_iff]

end TreeQuery.Text
