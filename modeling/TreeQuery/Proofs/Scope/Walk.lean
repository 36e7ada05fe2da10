import TreeQuery.Proofs.Scope.Reference

/-!
# One level of a walk

What a node binds, and what a search comes upon in it, is put together from its children, one after
the other. A search takes the children in the order in which they are listed, but of a member
expression the property comes before the object.
-/

namespace TreeQuery

/-- The children of a node in the order in which a search comes to them. -/
def Kind.inSearchOrder {α : Type} (kind : Kind) (children : List α) : List α :=
  if kind = .memberExpression then children.reverse else children

namespace Kind

theorem filter_inSearchOrder {α : Type} (kind : Kind) (keep : α → Bool) (values : List α) :
    (kind.inSearchOrder values).filter keep = kind.inSearchOrder (values.filter keep) := by
  unfold inSearchOrder
  split
  · exact List.filter_reverse
  · rfl

theorem mem_inSearchOrder {α : Type} {kind : Kind} {value : α} {values : List α} :
    value ∈ kind.inSearchOrder values ↔ value ∈ values := by
  unfold inSearchOrder
  split
  · exact List.mem_reverse
  · rfl

theorem map_inSearchOrder {α β : Type} (kind : Kind) (f : α → β) (values : List α) :
    (kind.inSearchOrder values).map f = kind.inSearchOrder (values.map f) := by
  unfold inSearchOrder
  split
  · exact List.map_reverse
  · rfl

end Kind

theorem flatMap_filter_of_eq_nil {α β : Type} {keep : α → Bool} {f : α → List β} {values : List α}
    (nothing : ∀ value ∈ values, keep value = false → f value = []) :
    (values.filter keep).flatMap f = values.flatMap f := by
  induction values with
  | nil => rfl
  | cons value values induction =>
      obtain ⟨here, later⟩ := List.forall_mem_cons.mp nothing
      rw [List.flatMap_cons, ← induction later]
      cases kept : keep value with
      | true => rw [List.filter_cons_of_pos kept, List.flatMap_cons]
      | false => rw [List.filter_cons_of_neg (by simp [kept]), here kept, List.nil_append]

/-! ## Bound names -/

theorem Node.namesOfList_eq_flatMap (view : View) (values : List Node) :
    Node.namesOfList view values = values.flatMap (Node.names view) := by
  induction values with
  | nil => rfl
  | cons value values induction => rw [Node.namesOfList, induction, List.flatMap_cons]

theorem Node.namesOfHoles_eq_flatMap (view : View) (values : List (Option Node)) :
    Node.namesOfHoles view values = (values.filterMap id).flatMap (Node.names view) := by
  induction values with
  | nil => rfl
  | cons value values induction => cases value <;> simp [Node.namesOfHoles, induction]

theorem Part.names_eq_flatMap (view : View) {shape : Shape} (part : Part shape) :
    part.names view = part.held.flatMap (Node.names view) := by
  cases part with
  | node value => exact (List.flatMap_singleton _ _).symm
  | optNode value => cases value <;> simp [Part.names, Part.held]
  | nodes values => exact Node.namesOfList_eq_flatMap view values
  | holes values => exact Node.namesOfHoles_eq_flatMap view values
  | _ => rfl

/-- The names that a child contributes, if the table selects the part that holds it. -/
def namesThrough (table : Field → Option View) (member : Field × Node) : List String :=
  (table member.1).elim [] fun view => member.2.names view

theorem Parts.names_eq_flatMap (table : Field → Option View) {slots : List Slot}
    (parts : Parts slots) : parts.names table = parts.children.flatMap (namesThrough table) := by
  induction slots with
  | nil => cases parts; rfl
  | cons slot slots induction =>
      cases parts with
      | @cons field _ _ head tail =>
          rw [Parts.names, Parts.children, List.flatMap_append, List.flatMap_map, ← induction]
          congr 1
          cases selected : table field with
          | none =>
              have nothing : ∀ child ∈ head.held, namesThrough table (field, child) = [] :=
                fun child _ => by simp [namesThrough, selected]
              exact (List.flatMap_eq_nil_iff.mpr nothing).symm
          | some view => simp [namesThrough, selected, Part.names_eq_flatMap]

/-- The names that a node binds come from the node itself and from those of its children that are
kept, when no other child contributes any. -/
theorem Node.names_eq_of_filter {kind : Kind} {parts : Parts kind.layout} {view : View}
    {keep : Field × Node → Bool}
    (nothing : ∀ member ∈ parts.children, keep member = false →
      namesThrough (kind.binds view) member = []) :
    (Node.mk kind parts).names view =
      (if kind = .identifier ∧ view = .declares then (parts.text? .name).toList else []) ++
        ((parts.children.filter keep).map (namesThrough (kind.binds view))).flatten := by
  rw [names, Parts.names_eq_flatMap, ← List.flatMap_def, flatMap_filter_of_eq_nil nothing]

/-! ## Sightings -/

theorem Node.sightingsOfList_eq_flatMap (name : String) (use : Use) (values : List Node) :
    Node.sightingsOfList name use values = values.flatMap (Node.sightings name use) := by
  induction values with
  | nil => rfl
  | cons value values induction => rw [Node.sightingsOfList, induction, List.flatMap_cons]

theorem Node.sightingsOfHoles_eq_flatMap (name : String) (use : Use)
    (values : List (Option Node)) :
    Node.sightingsOfHoles name use values =
      (values.filterMap id).flatMap (Node.sightings name use) := by
  induction values with
  | nil => rfl
  | cons value values induction => cases value <;> simp [Node.sightingsOfHoles, induction]

theorem Part.sightings_eq_flatMap (name : String) (use : Use) {shape : Shape} (part : Part shape) :
    part.sightings name use = part.held.flatMap (Node.sightings name use) := by
  cases part with
  | node value => exact (List.flatMap_singleton _ _).symm
  | optNode value => cases value <;> simp [Part.sightings, Part.held]
  | nodes values => exact Node.sightingsOfList_eq_flatMap name use values
  | holes values => exact Node.sightingsOfHoles_eq_flatMap name use values
  | _ => rfl

/-- What a search comes upon in a child, if the table gives a role to the part that holds it. -/
def sightingsThrough (name : String) (table : Field → Option Use) (member : Field × Node) :
    List Sighting :=
  (table member.1).elim [] fun use => member.2.sightings name use

/-- The children in the first part come before the others, unless the part waits for them. -/
theorem Parts.sightings_cons (name : String) (table : Field → Option Use)
    (deferred : Field → Bool) {field : Field} {shape : Shape} {slots : List Slot}
    (head : Part shape) (tail : Parts slots) :
    (@Parts.cons field _ _ head tail).sightings name table deferred =
      let first := (head.held.map (field, ·)).flatMap (sightingsThrough name table)
      let others := tail.sightings name table deferred
      if deferred field then others ++ first else first ++ others := by
  rw [Parts.sightings, List.flatMap_map]
  cases selected : table field with
  | none =>
      have nothing : ∀ child ∈ head.held, sightingsThrough name table (field, child) = [] :=
        fun child _ => by simp [sightingsThrough, selected]
      rw [List.flatMap_eq_nil_iff.mpr nothing]
  | some use => simp [sightingsThrough, selected, Part.sightings_eq_flatMap]

/-- Where no part waits for others, the children are searched as they are listed. -/
theorem Parts.sightings_eq_flatMap (name : String) (table : Field → Option Use)
    {deferred : Field → Bool} (prompt : ∀ field, deferred field = false) {slots : List Slot}
    (parts : Parts slots) :
    parts.sightings name table deferred =
      parts.children.flatMap (sightingsThrough name table) := by
  induction slots with
  | nil => cases parts; rfl
  | cons slot slots induction =>
      cases parts with
      | @cons field _ _ head tail =>
          rw [sightings_cons, prompt field, children, List.flatMap_append, ← induction]
          rfl

/-- The object of a member expression waits for the property. -/
theorem Parts.sightings_member (name : String) (table : Field → Option Use)
    (parts : Parts (Kind.layout .memberExpression)) :
    parts.sightings name table (Kind.isDeferred .memberExpression) =
      parts.children.reverse.flatMap (sightingsThrough name table) := by
  obtain ⟨⟨object, property, computed, optional, ⟨⟩⟩, rfl⟩ : ∃ row, parts = .ofRow row :=
    ⟨parts.row, parts.ofRow_row.symm⟩
  change Parts.sightings name table _ (.cons (.node object) (.cons (.node property)
    (.cons (.flag computed) (.cons (.flag optional) .nil)))) =
      List.flatMap _ [(Field.property, property), (Field.object, object)]
  simp only [sightings_cons, Kind.isDeferred, Part.held, List.map_cons, List.map_nil]
  simp [sightings]

theorem Parts.sightings_inSearchOrder (name : String) (table : Field → Option Use) {kind : Kind}
    (parts : Parts kind.layout) :
    parts.sightings name table kind.isDeferred =
      (kind.inSearchOrder parts.children).flatMap (sightingsThrough name table) := by
  by_cases member : kind = .memberExpression
  · subst member
    rw [Parts.sightings_member]
    rfl
  · have prompt : ∀ field, kind.isDeferred field = false := by
      intro field
      cases kind <;> first | rfl | exact absurd rfl member
    rw [Parts.sightings_eq_flatMap name table prompt, Kind.inSearchOrder, if_neg member]

end TreeQuery
