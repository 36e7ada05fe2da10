import TreeQuery.Load.Value
import TreeQuery.Proofs.Json.Canonical
import TreeQuery.Proofs.Result

/-!
# Records by look-up

The members of an object are taken in the order in which they stand, and the first error is
reported. Which error that is depends on the order, but whether there is one does not, nor does the
record that comes of it: as long as no key is repeated, every slot holds what the member with its
key yields, or what a missing member stands for.
-/

namespace TreeQuery

/-! ## Slots filled by look-up -/

/-- What a slot holds, given what the member with its key yields, if there is one. -/
def gatherPart (shape : Shape) : Option Reading → Option (Part shape)
  | some reading => (reading shape).toOption
  | none => shape.absent?

/-- The parts for slots whose members are looked up by key. -/
def gather : (slots : List Slot) → (String → Option Reading) → Option (Parts slots)
  | [], _ => some .nil
  | slot :: slots, lookup =>
      (gatherPart slot.shape (lookup slot.field.spelling)).bind fun part =>
        (gather slots lookup).map (.cons part)

/-- The keys of slots. -/
def slotKeys (slots : List Slot) : List String :=
  slots.map fun slot => slot.field.spelling

theorem gather_congr {slots : List Slot} {lookup other : String → Option Reading}
    (same : ∀ slot ∈ slots, gatherPart slot.shape (lookup slot.field.spelling) =
      gatherPart slot.shape (other slot.field.spelling)) :
    gather slots lookup = gather slots other := by
  induction slots with
  | nil => rfl
  | cons slot slots induction =>
      obtain ⟨first, others⟩ := List.forall_mem_cons.mp same
      rw [gather, gather, first, induction others]

theorem exists_gather_iff {slots : List Slot} {lookup : String → Option Reading} :
    (∃ parts, gather slots lookup = some parts) ↔
      ∀ slot ∈ slots, ∃ part, gatherPart slot.shape (lookup slot.field.spelling) = some part := by
  induction slots with
  | nil => simp [gather]
  | cons slot slots induction =>
      rw [List.forall_mem_cons, ← induction]
      constructor
      · rintro ⟨parts, gathered⟩
        obtain ⟨part, first, others⟩ := Option.bind_eq_some_iff.mp gathered
        obtain ⟨rest, others, -⟩ := Option.map_eq_some_iff.mp others
        exact ⟨⟨part, first⟩, rest, others⟩
      · rintro ⟨⟨part, first⟩, rest, others⟩
        exact ⟨.cons part rest, by simp [gather, first, others]⟩

namespace Draft

/-- The parts of a draft whose empty slots are filled by look-up. -/
def complete (lookup : String → Option Reading) :
    {slots : List Slot} → Draft slots → Option (Parts slots)
  | [], () => some .nil
  | slot :: _, (held, rest) =>
      (held.or (gatherPart slot.shape (lookup slot.field.spelling))).bind fun part =>
        (complete lookup rest).map (.cons part)

/-- The slot that a key names, if there is one, is empty. -/
def IsFree (key : String) : {slots : List Slot} → Draft slots → Prop
  | [], () => True
  | slot :: _, (held, rest) => (slot.field.spelling = key → held = none) ∧ IsFree key rest

theorem complete_empty (lookup : String → Option Reading) (slots : List Slot) :
    (empty slots).complete lookup = gather slots lookup := by
  induction slots with
  | nil => rfl
  | cons slot slots induction => rw [empty, complete, induction, gather, Option.none_or]

theorem isFree_empty (key : String) (slots : List Slot) : (empty slots).IsFree key := by
  induction slots with
  | nil => trivial
  | cons slot slots induction => exact ⟨fun _ => rfl, induction⟩

theorem toOption_finish {slots : List Slot} (draft : Draft slots) :
    draft.finish.toOption = draft.complete fun _ => none := by
  induction slots with
  | nil => rfl
  | cons slot slots induction =>
      obtain ⟨held, rest⟩ := draft
      rw [finish, complete, gatherPart, ← induction rest, Option.orElse_eq_orElse,
        Option.orElse_eq_or]
      cases held.or slot.shape.absent? with
      | none => rfl
      | some part => rw [toOption_bind_pure, Option.bind_some]

theorem complete_congr {slots : List Slot} {lookup other : String → Option Reading}
    (draft : Draft slots) (same : ∀ key ∈ slotKeys slots, lookup key = other key) :
    draft.complete lookup = draft.complete other := by
  induction slots with
  | nil => rfl
  | cons slot slots induction =>
      obtain ⟨held, rest⟩ := draft
      obtain ⟨first, others⟩ := List.forall_mem_cons.mp same
      rw [complete, complete, first, induction rest others]

theorem put_named {slot : Slot} {slots : List Slot} {key : String} {reading : Reading}
    {rest : Draft slots} (named : slot.field.spelling = key) :
    (put key reading (none, rest) : Except Mismatch (Draft (slot :: slots))) =
      reading slot.shape >>= fun part => pure (some part, rest) :=
  if_pos named

theorem put_unnamed {slot : Slot} {slots : List Slot} {key : String} {reading : Reading}
    {held : Option (Part slot.shape)} {rest : Draft slots} (named : slot.field.spelling ≠ key) :
    (put key reading (held, rest) : Except Mismatch (Draft (slot :: slots))) =
      put key reading rest >>= fun rest => pure (held, rest) :=
  if_neg named

/-- Putting a member into its slot is the same as finding it there by look-up. -/
theorem bind_put {slots : List Slot} {key : String} {reading : Reading} {draft : Draft slots}
    (lookup : String → Option Reading) (distinct : (slotKeys slots).Nodup)
    (free : draft.IsFree key) :
    ((draft.put key reading).toOption.bind fun draft => draft.complete lookup) =
      draft.complete fun other => if other = key then some reading else lookup other := by
  induction slots with
  | nil => rfl
  | cons slot slots induction =>
      obtain ⟨held, rest⟩ := draft
      obtain ⟨fresh, distinct⟩ := List.nodup_cons.mp distinct
      by_cases named : slot.field.spelling = key
      · obtain rfl := free.1 named
        -- No other slot has this key, so the look-up for the others does not see the member.
        have unnamed : ∀ other ∈ slotKeys slots,
            lookup other = if other = key then some reading else lookup other := by
          intro other present
          rw [if_neg]
          rintro rfl
          subst named
          exact fresh present
        rw [put_named named]
        simp only [complete, named, if_true, Option.none_or, gatherPart, toOption_bind_pure,
          ← rest.complete_congr unnamed]
        cases (reading slot.shape).toOption <;> rfl
      · rw [put_unnamed named]
        simp only [complete, named, if_false, toOption_bind_pure, ← induction distinct free.2]
        cases (rest.put key reading).toOption with
        | none => cases held.or (gatherPart slot.shape (lookup slot.field.spelling)) <;> rfl
        | some rest => rfl

theorem isFree_put {slots : List Slot} {key other : String} {reading : Reading}
    {draft next : Draft slots} (different : other ≠ key) (free : draft.IsFree other)
    (filled : draft.put key reading = .ok next) : next.IsFree other := by
  induction slots with
  | nil => trivial
  | cons slot slots induction =>
      obtain ⟨held, rest⟩ := draft
      by_cases named : slot.field.spelling = key
      · cases held with
        | some _ => exact absurd filled (by rw [put.eq_def]; simp [named])
        | none =>
            rw [put_named named, ← toOption_eq_some_iff, toOption_bind_pure,
              Option.map_eq_some_iff] at filled
            obtain ⟨part, -, rfl⟩ := filled
            exact ⟨fun same => absurd (same.symm.trans named) different, free.2⟩
      · rw [put_unnamed named, ← toOption_eq_some_iff, toOption_bind_pure,
          Option.map_eq_some_iff] at filled
        obtain ⟨rest, filled, rfl⟩ := filled
        exact ⟨free.1, induction free.2 (toOption_eq_some_iff.mp filled)⟩

/-- Taking members in their order and finishing is completing by look-up. -/
theorem toOption_putAll_finish {slots : List Slot} {members : List (String × Reading)}
    {draft : Draft slots} (distinct : (slotKeys slots).Nodup)
    (keys : (members.map Prod.fst).Nodup) (free : ∀ key ∈ members.map Prod.fst, draft.IsFree key) :
    (draft.putAll members >>= finish).toOption = draft.complete fun key => members.lookup key := by
  induction members generalizing draft with
  | nil => exact toOption_finish draft
  | cons member members induction =>
      obtain ⟨key, reading⟩ := member
      obtain ⟨fresh, keys⟩ := List.nodup_cons.mp keys
      obtain ⟨freeHere, freeLater⟩ := List.forall_mem_cons.mp free
      have step : ∀ next, draft.put key reading = .ok next →
          (next.putAll members >>= finish).toOption =
            next.complete fun key => members.lookup key := by
        intro next filled
        refine induction keys fun other present => isFree_put ?_ (freeLater other present) filled
        rintro rfl
        exact fresh present
      have lookup : (fun other => List.lookup other ((key, reading) :: members)) =
          fun other => if other = key then some reading else members.lookup other := by
        funext other
        rw [List.lookup_cons]
        by_cases same : other = key
        · simp [same]
        · simp [same, beq_eq_false_iff_ne.mpr same]
      rw [lookup, ← bind_put _ distinct freeHere, putAll, bind_assoc, toOption_bind]
      cases filled : draft.put key reading with
      | error _ => rfl
      | ok next => exact step next filled

end Draft

/-- An object without repeated keys fills every slot by look-up. -/
theorem Schema.toOption_ofMembers {schema : Schema} {members : List (String × Reading)}
    (distinct : (slotKeys schema.slots).Nodup) (keys : (members.map Prod.fst).Nodup) :
    (schema.ofMembers members).toOption = gather schema.slots fun key => members.lookup key := by
  rw [← Draft.complete_empty]
  exact Draft.toOption_putAll_finish distinct keys fun key _ => Draft.isFree_empty key _

theorem Kind.nodup_slotKeys (kind : Kind) : (slotKeys kind.layout).Nodup := by
  have table : ∀ kind ∈ all, (slotKeys kind.layout).Nodup := by decide +kernel
  exact table kind (mem_all kind)

end TreeQuery
