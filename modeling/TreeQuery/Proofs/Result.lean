/-!
# Results

A computation that may fail gives a value exactly when each of its steps gives one.
-/

namespace TreeQuery

theorem bind_eq_ok_iff {ε α β : Type} {result : Except ε α} {next : α → Except ε β} {value : β} :
    (result >>= next) = .ok value ↔ ∃ held, result = .ok held ∧ next held = .ok value := by
  cases result with
  | error _ => exact ⟨nofun, nofun⟩
  | ok held =>
      refine ⟨fun same => ⟨held, rfl, same⟩, fun ⟨_, same, rest⟩ => ?_⟩
      cases same
      exact rest

theorem bind_pure_eq_ok_iff {ε α β : Type} {result : Except ε α} {f : α → β} {value : β} :
    (result >>= fun held => pure (f held)) = .ok value ↔
      ∃ held, result = .ok held ∧ value = f held := by
  rw [bind_eq_ok_iff]
  exact exists_congr fun held => and_congr_right fun _ =>
    (Except.ok.injEq (f held) value).to_iff.trans eq_comm

theorem mapError_eq_ok_iff {ε δ α : Type} {result : Except ε α} {f : ε → δ} {value : α} :
    result.mapError f = .ok value ↔ result = .ok value := by
  cases result with
  | error _ => exact ⟨nofun, nofun⟩
  | ok found =>
      refine ⟨fun same => ?_, fun same => ?_⟩
      all_goals
        cases same
        rfl

/-! ## One computation more demanding than another -/

theorem bind_ok_and_congr {ε δ α β : Type} {result : Except ε α} {plain : Except δ α}
    {next : α → Except ε β} {plainNext : α → Except δ β} {value : β} {Holds : Prop}
    (same : ∀ held, result = .ok held ↔ plain = .ok held)
    (agree : ∀ held, next held = .ok value ↔ plainNext held = .ok value ∧ Holds) :
    (result >>= next) = .ok value ↔ (plain >>= plainNext) = .ok value ∧ Holds := by
  rw [bind_eq_ok_iff, bind_eq_ok_iff, ← exists_and_right]
  exact exists_congr fun held => (and_congr (same held) (agree held)).trans and_assoc.symm

theorem bind_pure_ok_and_congr {ε δ α σ κ : Type} {result : Except ε α} {plain : Except δ α}
    {f : α → σ × κ} {reached : σ × κ} {Holds : σ → Prop}
    (same : ∀ held, result = .ok held ↔ plain = .ok held ∧ Holds (f held).1) :
    (result >>= fun held => pure (f held)) = .ok reached ↔
      (plain >>= fun held => pure (f held)) = .ok reached ∧ Holds reached.1 := by
  rw [bind_pure_eq_ok_iff, bind_pure_eq_ok_iff, ← exists_and_right]
  refine exists_congr fun held => ?_
  rw [same held]
  constructor
  · rintro ⟨⟨read, holds⟩, rfl⟩
    exact ⟨⟨read, rfl⟩, holds⟩
  · rintro ⟨⟨read, rfl⟩, holds⟩
    exact ⟨⟨read, holds⟩, rfl⟩

/-! ## Without the error -/

theorem toOption_bind {ε α β : Type} (result : Except ε α) (next : α → Except ε β) :
    (result >>= next).toOption = result.toOption.bind fun value => (next value).toOption := by
  cases result <;> rfl

theorem toOption_bind_pure {ε α β : Type} (result : Except ε α) (f : α → β) :
    (result >>= fun value => pure (f value)).toOption = result.toOption.map f := by
  cases result <;> rfl

theorem toOption_eq_some_iff {ε α : Type} {result : Except ε α} {value : α} :
    result.toOption = some value ↔ result = .ok value := by
  cases result <;> simp [Except.toOption]

theorem toOption_mapM {ε α β : Type} (f : α → Except ε β) (values : List α) :
    (values.mapM f).toOption = values.mapM fun value => (f value).toOption := by
  induction values with
  | nil => rfl
  | cons value values induction =>
      rw [List.mapM_cons, List.mapM_cons, toOption_bind]
      simp only [toOption_bind_pure, induction]
      cases (f value).toOption with
      | none => rfl
      | some first => cases values.mapM fun value => (f value).toOption <;> rfl

end TreeQuery
