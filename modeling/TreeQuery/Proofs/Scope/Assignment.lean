import TreeQuery.Proofs.Scope.Reference

/-!
# Uses that assign

An assignment to a plain identifier is a use of its name, in an assignment expression as in the head
of a loop that declares nothing. Through a pattern it is none: patterns are searched as if they were
declared, and the plain identifiers that they assign to are passed over. A name that is assigned in
patterns only is not found.
-/

namespace TreeQuery

/-- The slots of what is assigned to. -/
def assignedSlots : List (Kind × Field) :=
  [(.assignmentExpression, .left), (.forInStatement, .left), (.forOfStatement, .left)]

/-- The slots of patterns, object patterns aside, through which a pattern assigns. -/
def targetSlots : List (Kind × Field) :=
  [(.arrayPattern, .elements), (.assignmentPattern, .left), (.restElement, .argument)]

/-- The last step of a trail leads to a target inside a pattern: through one of the slots, or
through the value of a property of an object pattern. -/
def EndsInTarget : List Step → Prop
  | [] => False
  | last :: earlier =>
      last.slot ∈ targetSlots ∨
        (last.slot = (.property, .value) ∧
          ∃ previous ∈ earlier.head?, previous.slot = (.objectPattern, .properties))

theorem EndsInTarget.endsInBinding {steps : List Step} (target : EndsInTarget steps) :
    EndsInBinding steps := by
  have binding : ∀ slot ∈ targetSlots, slot ∈ bindingSlots := by decide
  cases steps with
  | nil => exact target.elim
  | cons last earlier => exact target.imp (binding last.slot) id

namespace Node

/-- A node assigns to what stands on its left side, which declares nothing. -/
def AssignsTo : Node → Node → Prop
  | .mk kind parts, left =>
      (kind, .left) ∈ assignedSlots ∧ (.left, left) ∈ parts.children ∧
        left.kind? ≠ some .variableDeclaration
  | .unsupported, _ => False

/-- A plain identifier of a name is in target position: the node itself, or a target inside a
pattern. -/
inductive Targets (name : String) : Node → Prop where
  | identifier {parts : Parts (Kind.layout .identifier)} (held : parts.text? .name = some name) :
      Targets name (.mk .identifier parts)
  | slot {kind : Kind} {parts : Parts kind.layout} {field : Field} {child : Node}
      (inPattern : (kind, field) ∈ targetSlots) (member : (field, child) ∈ parts.children)
      (below : Targets name child) : Targets name (.mk kind parts)
  | property {parts : Parts (Kind.layout .objectPattern)}
      {inner : Parts (Kind.layout .property)} {child : Node}
      (member : (.properties, .mk .property inner) ∈ parts.children)
      (value : (.value, child) ∈ inner.children) (below : Targets name child) :
      Targets name (.mk .objectPattern parts)
  | rest {parts : Parts (Kind.layout .objectPattern)}
      {inner : Parts (Kind.layout .restElement)}
      (member : (.properties, .mk .restElement inner) ∈ parts.children)
      (below : Targets name (.mk .restElement inner)) : Targets name (.mk .objectPattern parts)

/-- There is one left side. -/
theorem eq_of_mem_left {kind : Kind} {parts : Parts kind.layout} {left other : Node}
    (assigned : (kind, .left) ∈ assignedSlots) (member : (.left, left) ∈ parts.children)
    (otherMember : (.left, other) ∈ parts.children) : left = other := by
  obtain ⟨row, rfl⟩ : ∃ row, parts = .ofRow row := ⟨parts.row, parts.ofRow_row.symm⟩
  obtain ⟨held, others, children, different⟩ : ∃ held others,
      (Parts.ofRow row).children = (.left, held) :: others ∧ ∀ slot ∈ others, slot.1 ≠ .left := by
    simp only [assignedSlots, List.mem_cons, Prod.mk.injEq, and_true, List.not_mem_nil, or_false]
      at assigned
    rcases assigned with rfl | rfl | rfl
    · exact ⟨row.2.1, [(.right, row.2.2.1)], rfl, by simp⟩
    · exact ⟨row.1, [(.right, row.2.1), (.body, row.2.2.1)], rfl, by simp⟩
    · exact ⟨row.1, [(.right, row.2.1), (.body, row.2.2.1)], rfl, by simp⟩
  have isHeld : ∀ child, (Field.left, child) ∈ (Parts.ofRow row).children → child = held := by
    intro child present
    rw [children] at present
    rcases List.mem_cons.mp present with same | later
    · exact (Prod.mk.inj same).2
    · exact absurd rfl (different _ later)
  rw [isHeld left member, isHeld other otherMember]

/-- A loop that declares nothing in its head binds no name, and an assignment never does. -/
theorem AssignsTo.not_binds {name : String} {kind : Kind} {parts : Parts kind.layout} {left : Node}
    (assigns : (Node.mk kind parts).AssignsTo left) : ¬ (Node.mk kind parts).Binds name := by
  obtain ⟨assigned, member, noDeclaration⟩ := assigns
  intro binds
  cases binds with
  | identifier _ => simp [assignedSlots] at assigned
  | @slot _ _ field _ binder _ _ =>
      have apart : ∀ slot ∈ binderSlots, (slot.1, .left) ∉ assignedSlots := by decide
      exact apart _ binder assigned
  | @head _ _ field declaration loop declared declares _ =>
      have atLeft : ∀ slot ∈ headSlots, (slot.1, .left) ∈ assignedSlots → slot.2 = .left := by
        decide
      obtain rfl : field = .left := atLeft _ loop assigned
      exact noDeclaration (eq_of_mem_left assigned declared member ▸ declares)
  | specifier _ _ _ _ => simp [assignedSlots] at assigned

/-- The step to the left side of an assignment is always open. -/
theorem AssignsTo.use?_eq {name : String} {kind : Kind} {parts : Parts kind.layout} {left : Node}
    (assigns : (Node.mk kind parts).AssignsTo left) :
    (kind.treatment .reference .left).use? ((Node.mk kind parts).circumstances name) =
      some .reference := by
  have table : ∀ slot ∈ assignedSlots, slot ∉ silentSlots ∧ slot ∉ keySlots ∧
      slot ≠ (.exportNamedDeclaration, .specifiers) ∧ slot ∉ classSlots ∧
        roleIn .reference slot = .reference := by decide
  obtain ⟨loud, noKey, noExport, noClass, role⟩ := table _ assigns.1
  refine (Step.use?_eq_some_iff ⟨kind, parts, .left, left⟩ assigns.2.1).mpr ⟨?_, ?_, role⟩
  · rintro (silent | ⟨key, -⟩ | ⟨specifiers, -⟩)
    · exact loud silent
    · exact noKey key
    · exact noExport specifiers
  · rintro (⟨-, binds⟩ | ⟨inClass, -⟩)
    · exact assigns.not_binds binds
    · exact noClass inClass

/-- The element of an array pattern is assigned to, but the search passes it over. -/
theorem assigned_element_unseen :
    ¬ ∀ (name : String) (node left : Node), node.AssignsTo left → left.Targets name →
      node.uses name = true := by
  intro allSeen
  let foo := make .identifier ("foo", ())
  let pattern := make .arrayPattern ([some foo], ())
  let bar := make .identifier ("bar", ())
  let node := make .assignmentExpression (.assign, pattern, bar, ())
  have assigns : node.AssignsTo pattern := ⟨by decide, List.mem_cons_self, by decide⟩
  have targets : pattern.Targets "foo" := .slot (by decide) List.mem_cons_self (.identifier rfl)
  exact absurd (allSeen "foo" node pattern assigns targets) (by decide)

/-- A name that is assigned to as a plain identifier is used. A name that occurs only as a target
inside patterns is not. -/
theorem uses_assigned (name : String) (node left : Node) (assigns : node.AssignsTo left) :
    (left.isIdentifier = true → left.Targets name → node.uses name = true) ∧
      ((∀ steps target, Trail node steps target → target.IsCalled name →
        target.isIdentifier = true ∧ EndsInTarget steps) → node.uses name = false) := by
  constructor
  · intro isIdentifier targets
    rw [uses_iff_mem]
    cases node with
    | unsupported => exact assigns.elim
    | mk kind parts =>
        refine use_mem_sightings_mk.mpr
          (Or.inr ⟨.left, left, .reference, assigns.2.1, assigns.use?_eq, ?_⟩)
        cases targets with
        | identifier held => exact use_mem_sightings_mk.mpr (Or.inl ⟨rfl, held⟩)
        | slot inPattern _ _ =>
            have patterns : ∀ slot ∈ targetSlots, slot.1 ≠ .identifier := by decide
            exact absurd (Option.some.inj (beq_iff_eq.mp isIdentifier)) (patterns _ inPattern)
        | property _ _ _ => cases isIdentifier
        | rest _ _ => cases isIdentifier
  · intro onlyTargets
    rw [Bool.eq_false_iff, ne_eq, uses_iff_mem]
    intro seen
    obtain ⟨steps, target, use⟩ := Trail.exists_useTrail node .here (by simp) (by simp) seen
    obtain ⟨isIdentifier, inTarget⟩ := onlyTargets steps target use.trail use.called
    exact use.unbound isIdentifier inTarget.endsInBinding

/-- The same name assigned to directly and through a pattern in the head of a loop. -/
theorem uses_assigned_in_loop :
    let foo := make .identifier ("foo", ())
    let pattern := make .arrayPattern ([some foo], ())
    let loop (left : Node) := make .forOfStatement (left, make .super (), make .emptyStatement (),
      false, ())
    (loop foo).uses "foo" = true ∧ (loop pattern).uses "foo" = false := by
  intro foo pattern loop
  have bare : (loop foo).AssignsTo foo := ⟨by decide, List.mem_cons_self, by decide⟩
  have patterned : (loop pattern).AssignsTo pattern := ⟨by decide, List.mem_cons_self, by decide⟩
  refine ⟨(uses_assigned "foo" _ foo bare).1 rfl (.identifier rfl),
    (uses_assigned "foo" _ pattern patterned).2 ?_⟩
  intro steps target trail called
  rcases trail.cases_first with ⟨-, rfl⟩ | ⟨_, _, _, child, later, same, member, rfl, lower⟩
  · exact absurd called.1 (by decide)
  · cases same
    rcases member with _ | ⟨_, _ | ⟨_, _ | ⟨_, ⟨⟩⟩⟩⟩
    · change Trail (make .arrayPattern ([some foo], ())) _ _ at lower
      rcases lower.cases_first with ⟨-, rfl⟩ | ⟨_, _, _, child, later, same, member, rfl, lowest⟩
      · exact absurd called.1 (by decide)
      · cases same
        rcases member with _ | ⟨_, ⟨⟩⟩
        change Trail (make .identifier ("foo", ())) _ _ at lowest
        rcases lowest.cases_first with ⟨rfl, rfl⟩ | ⟨_, _, _, _, _, same, member, -, -⟩
        · exact ⟨rfl, Or.inl (by decide)⟩
        · cases same
          cases member
    · rcases lower.cases_first with ⟨-, rfl⟩ | ⟨_, _, _, _, _, same, member, -, -⟩
      · exact absurd called.1 (by decide)
      · cases same
        cases member
    · rcases lower.cases_first with ⟨-, rfl⟩ | ⟨_, _, _, _, _, same, member, -, -⟩
      · exact absurd called.1 (by decide)
      · cases same
        cases member

end Node

end TreeQuery
