import TreeQuery.Json.Reader
import TreeQuery.Proofs.Result

/-!
# What reading JSON text preserves

A list or an object is read entry by entry, so what every entry preserves holds behind the closing
bracket; and a value is read level by level, so what holds of scalars and passes from the inside of
a bracket to the whole holds of every value that is read. A reader that also watches for a property
of what it has read gives what a plain one gives, as long as the property holds.
-/

namespace TreeQuery.Json

/-! ## Entries -/

section Entries

variable {ε σ : Type} {bracket : Bracket} {lift : Fault → ε}
  {entry : σ → Cursor → Except ε (σ × Cursor)}

/-- The closing bracket is next. -/
def Bracket.Closes (bracket : Bracket) (cursor : Cursor) : Prop :=
  cursor.skip.rest.head? = some bracket.closing

/-- A comma is next, and behind it something other than the closing bracket. -/
def Bracket.GoesOn (bracket : Bracket) (cursor : Cursor) : Prop :=
  ',' ≠ bracket.closing ∧ cursor.skip.rest.head? = some ',' ∧
    ∃ first, cursor.skip.next.skip.rest.head? = some first ∧ first ≠ bracket.closing

/-- What one round of the loop can do. -/
theorem readMore_succ_eq_ok_iff {count : Nat} {state : σ} {cursor : Cursor} {final : σ × Cursor} :
    readMore bracket lift entry (count + 1) state cursor = .ok final ↔
      bracket.Closes cursor ∧ (state, cursor.skip.next) = final ∨
      bracket.GoesOn cursor ∧
        (entry state cursor.skip.next.skip >>= fun reached =>
          readMore bracket lift entry count reached.1 reached.2) = .ok final := by
  rw [readMore, Bracket.Closes, Bracket.GoesOn]
  dsimp only
  split
  · rename_i ends
    simp [ends]
  · rename_i c rest here
    by_cases closes : c = bracket.closing
    · -- The first test of the loop is for the bracket, so a bracket is never taken for a comma.
      simp only [here, closes, if_true, List.head?_cons, Option.some.injEq, true_and,
        Except.ok.injEq]
      grind
    · by_cases comma : c = ','
      · subst comma
        rw [if_neg closes, if_pos rfl]
        split
        · rename_i ends
          simp [here, closes, ends]
        · rename_i first _ behind
          by_cases trailing : first = bracket.closing
          · simp [here, closes, behind, trailing]
          · simp [here, closes, behind, trailing]
      · simp [here, closes, comma]

variable {Fine : σ → Prop}
  (preserves : ∀ {state cursor reached}, Fine state → entry state cursor = .ok reached →
    Fine reached.1)

include preserves

theorem preserved_by_readMore {count : Nat} {state : σ} {cursor : Cursor} {final : σ × Cursor}
    (fine : Fine state) (read : readMore bracket lift entry count state cursor = .ok final) :
    Fine final.1 := by
  induction count generalizing state cursor with
  | zero => cases read
  | succ count induction =>
      rcases readMore_succ_eq_ok_iff.mp read with ⟨-, rfl⟩ | ⟨-, read⟩
      · exact fine
      · obtain ⟨reached, here, rest⟩ := bind_eq_ok_iff.mp read
        exact induction (preserves fine here) rest

/-- What every entry preserves, a run of entries preserves. -/
theorem preserved_by_readEntries {state : σ} {cursor : Cursor} {final : σ × Cursor}
    (fine : Fine state) (read : readEntries bracket lift entry state cursor = .ok final) :
    Fine final.1 := by
  rw [readEntries] at read
  dsimp only at read
  split at read
  · cases read
  · split at read
    · cases read
      exact fine
    · obtain ⟨reached, here, rest⟩ := bind_eq_ok_iff.mp read
      exact preserved_by_readMore preserves (preserves fine here) rest

end Entries

/-! ## Entries watched on the way -/

section Watched

variable {ε δ σ : Type} {bracket : Bracket} {lift : Fault → ε} {plainLift : Fault → δ}
  {watched : σ → Cursor → Except ε (σ × Cursor)} {plain : σ → Cursor → Except δ (σ × Cursor)}
  {Fine : σ → Prop}

/-- A reader of entries watches for a property of the state when it gives what a plain reader gives,
but only if the property holds behind the entry. The property, once lost, is lost for good. -/
structure Watches (watched : σ → Cursor → Except ε (σ × Cursor))
    (plain : σ → Cursor → Except δ (σ × Cursor)) (Fine : σ → Prop) : Prop where
  eq_ok_iff : ∀ {state cursor reached}, Fine state →
    (watched state cursor = .ok reached ↔ plain state cursor = .ok reached ∧ Fine reached.1)
  fine_before : ∀ {state cursor reached},
    plain state cursor = .ok reached → Fine reached.1 → Fine state

/-- What one entry preserves backwards, a run of entries does. -/
theorem fine_of_readMore (watches : Watches watched plain Fine) {count : Nat} {state : σ}
    {cursor : Cursor} {final : σ × Cursor}
    (read : readMore bracket plainLift plain count state cursor = .ok final)
    (fine : Fine final.1) : Fine state := by
  induction count generalizing state cursor with
  | zero => cases read
  | succ count induction =>
      rcases readMore_succ_eq_ok_iff.mp read with ⟨-, rfl⟩ | ⟨-, read⟩
      · exact fine
      · obtain ⟨reached, here, rest⟩ := bind_eq_ok_iff.mp read
        exact watches.fine_before here (induction rest)

/-- A watched entry and what follows it. -/
theorem bind_entry_eq_ok_iff (watches : Watches watched plain Fine) {state : σ} {cursor : Cursor}
    {final : σ × Cursor} {more : σ × Cursor → Except ε (σ × Cursor)}
    {plainMore : σ × Cursor → Except δ (σ × Cursor)} (fine : Fine state)
    (agree : ∀ reached, Fine reached.1 →
      (more reached = .ok final ↔ plainMore reached = .ok final ∧ Fine final.1))
    (back : ∀ reached, plainMore reached = .ok final → Fine final.1 → Fine reached.1) :
    (watched state cursor >>= more) = .ok final ↔
      (plain state cursor >>= plainMore) = .ok final ∧ Fine final.1 := by
  rw [bind_eq_ok_iff, bind_eq_ok_iff]
  constructor
  · rintro ⟨reached, here, rest⟩
    obtain ⟨here, fineReached⟩ := (watches.eq_ok_iff fine).mp here
    obtain ⟨rest, fineFinal⟩ := (agree reached fineReached).mp rest
    exact ⟨⟨reached, here, rest⟩, fineFinal⟩
  · rintro ⟨⟨reached, here, rest⟩, fineFinal⟩
    have fineReached := back reached rest fineFinal
    exact ⟨reached, (watches.eq_ok_iff fine).mpr ⟨here, fineReached⟩,
      (agree reached fineReached).mpr ⟨rest, fineFinal⟩⟩

theorem readMore_eq_ok_iff (watches : Watches watched plain Fine) {count : Nat} {state : σ}
    {cursor : Cursor} {final : σ × Cursor} (fine : Fine state) :
    readMore bracket lift watched count state cursor = .ok final ↔
      readMore bracket plainLift plain count state cursor = .ok final ∧ Fine final.1 := by
  induction count generalizing state cursor with
  | zero => exact ⟨nofun, nofun⟩
  | succ count induction =>
      rw [readMore_succ_eq_ok_iff, readMore_succ_eq_ok_iff,
        bind_entry_eq_ok_iff watches fine (fun _ => induction) fun _ => fine_of_readMore watches]
      constructor
      · rintro (⟨closes, rfl⟩ | ⟨goesOn, rest, fineFinal⟩)
        · exact ⟨.inl ⟨closes, rfl⟩, fine⟩
        · exact ⟨.inr ⟨goesOn, rest⟩, fineFinal⟩
      · rintro ⟨⟨closes, rfl⟩ | ⟨goesOn, rest⟩, fineFinal⟩
        · exact .inl ⟨closes, rfl⟩
        · exact .inr ⟨goesOn, rest, fineFinal⟩

/-- A run of watched entries gives what a run of plain entries gives, if the property holds in the
end. -/
theorem readEntries_eq_ok_iff (watches : Watches watched plain Fine) {state : σ} {cursor : Cursor}
    {final : σ × Cursor} (fine : Fine state) :
    readEntries bracket lift watched state cursor = .ok final ↔
      readEntries bracket plainLift plain state cursor = .ok final ∧ Fine final.1 := by
  rw [readEntries, readEntries]
  dsimp only
  split
  · exact ⟨nofun, nofun⟩
  · split
    · rw [Except.ok.injEq, Except.ok.injEq]
      exact ⟨fun same => ⟨same, same ▸ fine⟩, And.left⟩
    · exact bind_entry_eq_ok_iff watches fine (fun _ => readMore_eq_ok_iff watches)
        fun _ => fine_of_readMore watches

end Watched

/-! ## Values by their first character -/

section FirstCharacter

variable {nested : Option (Cursor → Except Fault (Json × Cursor))} {cursor : Cursor}
  {tail : List Char} {reached : Json × Cursor}

theorem readWith_list (list : cursor.skip.rest = '[' :: tail) :
    readWith nested cursor = .ok reached ↔
      ∃ value items behind, nested = some value ∧
        readEntries .list id (readItem value) [] cursor.skip.next = .ok (items, behind) ∧
          reached = (.array items.reverse, behind) := by
  rw [readWith.eq_def]
  dsimp only
  rw [list]
  cases nested with
  | none => exact ⟨nofun, nofun⟩
  | some value => exact (bind_pure_eq_ok_iff.trans Prod.exists).trans (by simp)

theorem readWith_object (object : cursor.skip.rest = '\x7b' :: tail) :
    readWith nested cursor = .ok reached ↔
      ∃ value members behind, nested = some value ∧
        readEntries .object id (readMember value) [] cursor.skip.next = .ok (members, behind) ∧
          reached = (.object members.reverse, behind) := by
  rw [readWith.eq_def]
  dsimp only
  rw [object]
  cases nested with
  | none => exact ⟨nofun, nofun⟩
  | some value => exact (bind_pure_eq_ok_iff.trans Prod.exists).trans (by simp)

theorem readWith_scalar (notList : ∀ tail, cursor.skip.rest ≠ '[' :: tail)
    (notObject : ∀ tail, cursor.skip.rest ≠ '\x7b' :: tail) :
    readWith nested cursor = readScalar cursor.skip := by
  rw [readWith.eq_def]
  dsimp only
  split
  · rename_i opens
    exact absurd opens (notList _)
  · rename_i opens
    exact absurd opens (notList _)
  · rename_i opens
    exact absurd opens (notObject _)
  · rename_i opens
    exact absurd opens (notObject _)
  · rfl

end FirstCharacter

/-! ## Values -/

/-- A scalar is what its first character announces, and a number has the value of a numeral. -/
theorem cases_of_readScalar {cursor : Cursor} {reached : Json × Cursor}
    (read : readScalar cursor = .ok reached) :
    reached.1 = .null ∨ (∃ value, reached.1 = .bool value) ∨ (∃ value, reached.1 = .string value) ∨
      ∃ (numeral : Numeral) (stop : Nat) (value : Number),
        numeral.value stop = .ok value ∧ reached.1 = .number value := by
  rw [readScalar.eq_def] at read
  split at read
  · cases read
  · obtain ⟨_, _, rfl⟩ := bind_pure_eq_ok_iff.mp read
    exact .inl rfl
  · obtain ⟨_, _, rfl⟩ := bind_pure_eq_ok_iff.mp read
    exact .inr (.inl ⟨_, rfl⟩)
  · obtain ⟨_, _, rfl⟩ := bind_pure_eq_ok_iff.mp read
    exact .inr (.inl ⟨_, rfl⟩)
  · obtain ⟨_, _, rfl⟩ := bind_pure_eq_ok_iff.mp read
    exact .inr (.inr (.inl ⟨_, rfl⟩))
  · split at read
    · obtain ⟨_, _, rest⟩ := bind_eq_ok_iff.mp read
      obtain ⟨value, valued, rfl⟩ := bind_pure_eq_ok_iff.mp rest
      exact .inr (.inr (.inr ⟨_, _, value, valued, rfl⟩))
    · cases read

section Levels

variable (holds : Nat → Json → Prop)
  (scalar : ∀ {depth cursor reached}, readScalar cursor = .ok reached → holds depth reached.1)
  (array : ∀ {depth items}, (∀ item ∈ items, holds depth item) → holds (depth + 1) (.array items))
  (object : ∀ {depth members}, (∀ member ∈ members, holds depth member.2) →
    holds (depth + 1) (.object members))

include scalar array object

/-- One level of reading: a bracket is read only where there is a reader for what stands inside. -/
theorem holds_of_readWith {nested : Option (Cursor → Except Fault (Json × Cursor))}
    {depth : Nat} {cursor : Cursor} {reached : Json × Cursor}
    (inner : ∀ value ∈ nested, ∃ less, depth = less + 1 ∧
      ∀ {cursor reached}, value cursor = .ok reached → holds less reached.1)
    (read : readWith nested cursor = .ok reached) : holds depth reached.1 := by
  by_cases list : ∃ tail, cursor.skip.rest = '[' :: tail
  · obtain ⟨tail, list⟩ := list
    obtain ⟨value, items, behind, rfl, entries, rfl⟩ := (readWith_list list).mp read
    obtain ⟨less, rfl, each⟩ := inner value rfl
    have preserves : ∀ {state cursor reached}, (∀ item ∈ state, holds less item) →
        readItem value state cursor = .ok reached → ∀ item ∈ reached.1, holds less item := by
      intro state cursor reached fine read
      obtain ⟨⟨item, behind⟩, here, rfl⟩ := bind_pure_eq_ok_iff.mp read
      exact List.forall_mem_cons.mpr ⟨each here, fine⟩
    have inside := preserved_by_readEntries preserves (List.forall_mem_nil _) entries
    exact array fun item present => inside item (List.mem_reverse.mp present)
  · by_cases record : ∃ tail, cursor.skip.rest = '\x7b' :: tail
    · obtain ⟨tail, record⟩ := record
      obtain ⟨value, members, behind, rfl, entries, rfl⟩ := (readWith_object record).mp read
      obtain ⟨less, rfl, each⟩ := inner value rfl
      have preserves : ∀ {state cursor reached}, (∀ member ∈ state, holds less member.2) →
          readMember value state cursor = .ok reached →
            ∀ member ∈ reached.1, holds less member.2 := by
        intro state cursor reached fine read
        obtain ⟨key, -, read⟩ := bind_eq_ok_iff.mp read
        obtain ⟨colon, -, read⟩ := bind_eq_ok_iff.mp read
        obtain ⟨⟨member, behind⟩, here, rfl⟩ := bind_pure_eq_ok_iff.mp read
        exact List.forall_mem_cons.mpr ⟨each here, fine⟩
      have inside := preserved_by_readEntries preserves (List.forall_mem_nil _) entries
      exact object fun member present => inside member (List.mem_reverse.mp present)
    · rw [readWith_scalar (not_exists.mp list) (not_exists.mp record)] at read
      exact scalar read

theorem holds_of_readValue {depth : Nat} {cursor : Cursor} {reached : Json × Cursor}
    (read : readValue depth cursor = .ok reached) : holds depth reached.1 := by
  induction depth generalizing cursor reached with
  | zero =>
      refine holds_of_readWith holds scalar array object ?_ read
      rintro value ⟨⟩
  | succ depth induction =>
      refine holds_of_readWith holds scalar array object ?_ read
      rintro value ⟨⟩
      exact ⟨depth, rfl, induction⟩

end Levels

/-- What holds of the value that is read, whatever follows it, holds of a text that is one value. -/
theorem exists_readValue_of_parse {text : List Char} {value : Json}
    (parsed : parse text = .ok value) :
    ∃ cursor, readValue depthLimit ⟨text, 0⟩ = .ok (value, cursor) := by
  obtain ⟨⟨_, cursor⟩, read, rest⟩ := bind_eq_ok_iff.mp parsed
  obtain ⟨_, _, rfl⟩ := bind_pure_eq_ok_iff.mp rest
  exact ⟨cursor, read⟩

end TreeQuery.Json
