import TreeQuery.Proofs.Scope.Binder
import TreeQuery.Scope.Usage

/-!
# What a use of a name is

A use is a trail down to an identifier of the name. No step of the trail goes through a slot that
never refers to variables, a plain identifier does not sit where it binds, and no step enters the
inside of a node that binds the name. The search finds a use exactly when there is such a trail.
-/

namespace TreeQuery

/-- The slots that never refer to variables, whatever stands there. -/
def silentSlots : List (Kind × Field) :=
  [(.jsxMemberExpression, .property), (.labeledStatement, .label), (.breakStatement, .label),
   (.continueStatement, .label), (.jsxAttribute, .name), (.jsxNamespacedName, .nameSpace),
   (.jsxNamespacedName, .name), (.metaProperty, .metaName), (.metaProperty, .property),
   (.jsxElement, .closingElement), (.jsxClosingElement, .name), (.importDeclaration, .specifiers),
   (.importDeclaration, .source), (.importSpecifier, .imported), (.importSpecifier, .localName),
   (.importDefaultSpecifier, .localName), (.importNamespaceSpecifier, .localName),
   (.exportSpecifier, .exported), (.exportNamedDeclaration, .source),
   (.exportAllDeclaration, .source), (.exportAllDeclaration, .exported),
   (.functionDeclaration, .id), (.functionExpression, .id), (.arrowFunctionExpression, .id),
   (.classDeclaration, .id), (.classExpression, .id)]

/-- The slots of keys and member names, which refer to variables only when they are computed. -/
def keySlots : List (Kind × Field) :=
  [(.property, .key), (.methodDefinition, .key), (.propertyDefinition, .key),
   (.memberExpression, .property)]

/-- The insides of scopes and functions and all of a loop, where a name that the node binds is not
the name outside. -/
def scopeSlots : List (Kind × Field) :=
  [(.program, .body), (.blockStatement, .body), (.staticBlock, .body),
   (.functionDeclaration, .body), (.functionExpression, .body), (.arrowFunctionExpression, .body),
   (.catchClause, .body), (.forStatement, .init), (.forStatement, .test), (.forStatement, .update),
   (.forStatement, .body), (.forInStatement, .left), (.forInStatement, .right),
   (.forInStatement, .body), (.forOfStatement, .left), (.forOfStatement, .right),
   (.forOfStatement, .body)]

/-- The insides of classes, where the name of the class is not the name outside. -/
def classSlots : List (Kind × Field) :=
  [(.classDeclaration, .superClass), (.classDeclaration, .body), (.classExpression, .superClass),
   (.classExpression, .body)]

/-- The slots in which a plain identifier binds its name. -/
def bindingSlots : List (Kind × Field) :=
  [(.functionDeclaration, .params), (.functionExpression, .params),
   (.arrowFunctionExpression, .params), (.catchClause, .param), (.variableDeclarator, .id),
   (.arrayPattern, .elements), (.assignmentPattern, .left), (.restElement, .argument)]

namespace Step

/-- The step goes through a slot that does not refer to variables. -/
def IsSilent (step : Step) : Prop :=
  step.slot ∈ silentSlots ∨
    (step.slot ∈ keySlots ∧ step.parts.isSet .computed = false) ∨
    (step.slot = (.exportNamedDeclaration, .specifiers) ∧ step.parts.isPresent .source = true)

/-- The step enters the inside of a node that binds the name. -/
def IsShadowed (name : String) (step : Step) : Prop :=
  (step.slot ∈ scopeSlots ∧ step.parent.Binds name) ∨
    (step.slot ∈ classSlots ∧ ∃ id, (.id, id) ∈ step.parts.children ∧ id.Binds name)

end Step

/-- The last step of a trail leads into a binding slot: one of the list, or the value of a property
that is itself a member of an object pattern. -/
def EndsInBinding : List Step → Prop
  | [] => False
  | last :: earlier =>
      last.slot ∈ bindingSlots ∨
        (last.slot = (.property, .value) ∧
          ∃ previous ∈ earlier.head?, previous.slot = (.objectPattern, .properties))

/-- An identifier of either kind with the given name. -/
def Node.IsCalled (name : String) : Node → Prop
  | .mk kind parts =>
      (kind = .identifier ∨ kind = .jsxIdentifier) ∧ parts.text? .name = some name
  | .unsupported => False

/-- The steps lead from a root down to a use of a name. -/
structure UseTrail (name : String) (root : Node) (steps : List Step) (target : Node) : Prop where
  /-- The steps lead to the target. -/
  trail : Trail root steps target
  /-- The target is an identifier of the name. -/
  called : target.IsCalled name
  /-- No step goes through a slot that does not refer to variables. -/
  audible : ∀ step ∈ steps, ¬ step.IsSilent
  /-- A plain identifier does not sit in a binding slot. -/
  unbound : target.isIdentifier = true → ¬ EndsInBinding steps
  /-- No step enters the inside of a node that binds the name. -/
  visible : ∀ step ∈ steps, ¬ step.IsShadowed name

/-! ## One level of the search -/

theorem Node.mem_sightingsOfList {name : String} {use : Use} {sighting : Sighting}
    {values : List Node} :
    sighting ∈ Node.sightingsOfList name use values ↔
      ∃ value ∈ values, sighting ∈ value.sightings name use := by
  induction values with
  | nil => simp [Node.sightingsOfList]
  | cons value values induction => simp [Node.sightingsOfList, induction]

theorem Node.mem_sightingsOfHoles {name : String} {use : Use} {sighting : Sighting}
    {values : List (Option Node)} :
    sighting ∈ Node.sightingsOfHoles name use values ↔
      ∃ value ∈ values.filterMap id, sighting ∈ value.sightings name use := by
  induction values with
  | nil => simp [Node.sightingsOfHoles]
  | cons value values induction => cases value <;> simp [Node.sightingsOfHoles, induction]

theorem Part.mem_sightings {name : String} {use : Use} {sighting : Sighting} {shape : Shape}
    {part : Part shape} :
    sighting ∈ part.sightings name use ↔
      ∃ child ∈ part.held, sighting ∈ child.sightings name use := by
  cases part with
  | optNode value => cases value <;> simp [Part.sightings, Part.held]
  | nodes values => simpa [Part.sightings, Part.held] using Node.mem_sightingsOfList
  | holes values => simpa only [Part.sightings, Part.held] using Node.mem_sightingsOfHoles
  | _ => simp [Part.sightings, Part.held]

theorem Parts.mem_sightings {name : String} {table : Field → Option Use} {deferred : Field → Bool}
    {sighting : Sighting} {slots : List Slot} {parts : Parts slots} :
    sighting ∈ parts.sightings name table deferred ↔
      ∃ field child use, (field, child) ∈ parts.children ∧ table field = some use ∧
        sighting ∈ child.sightings name use := by
  induction slots with
  | nil => cases parts; simp [Parts.sightings, Parts.children]
  | cons slot slots induction =>
      cases parts with
      | @cons field _ _ head tail =>
          -- The order in which the two groups are listed does not matter for membership.
          have split : sighting ∈ (@Parts.cons field _ _ head tail).sightings name table deferred ↔
              (∃ use, table field = some use ∧ sighting ∈ head.sightings name use) ∨
                sighting ∈ tail.sightings name table deferred := by
            cases selected : table field <;> cases waits : deferred field <;>
              simp [Parts.sightings, selected, waits, or_comm]
          simp only [split, induction, Part.mem_sightings, mem_children_cons]
          constructor
          · rintro (⟨use, selected, child, present, seen⟩ | ⟨found, child, use, later, facts⟩)
            · exact ⟨field, child, use, Or.inl ⟨rfl, present⟩, selected, seen⟩
            · exact ⟨found, child, use, Or.inr later, facts⟩
          · rintro ⟨found, child, use, ⟨rfl, present⟩ | later, selected, seen⟩
            · exact Or.inl ⟨use, selected, child, present, seen⟩
            · exact Or.inr ⟨found, child, use, later, selected, seen⟩

/-- A use is the node itself or is seen in a child whose part the table gives a role. -/
theorem Node.use_mem_sightings_mk {name : String} {use : Use} {kind : Kind}
    {parts : Parts kind.layout} :
    Sighting.use ∈ (Node.mk kind parts).sightings name use ↔
      (kind.isUse use = true ∧ parts.text? .name = some name) ∨
        ∃ field child use', (field, child) ∈ parts.children ∧
          (kind.treatment use field).use? ((Node.mk kind parts).circumstances name) = some use' ∧
            Sighting.use ∈ child.sightings name use' := by
  rw [Node.sightings, List.mem_append, Parts.mem_sightings]
  simp [Kind.ownSightings]

/-! ## The table of treatments, slot by slot -/

/-- Slots are found in the tables by comparing kinds and fields. -/
instance : LawfulBEq (Kind × Field) :=
  inferInstance

/-- The role of the nodes in a slot of a node that stands in the given role. -/
def roleIn (use : Use) (slot : Kind × Field) : Use :=
  if slot ∈ bindingSlots ∨ (slot = (.property, .value) ∧ use = .member) then .target
  else if slot = (.objectPattern, .properties) then .member
  else .reference

/-- The condition under which a slot is searched that is not silent. -/
def conditionIn (slot : Kind × Field) : Condition :=
  if slot ∈ keySlots then .computed
  else if slot = (.exportNamedDeclaration, .specifiers) then .unsourced
  else if slot ∈ scopeSlots ∨ slot ∈ classSlots then .visible
  else .always

theorem Kind.treatment_eq {kind : Kind} {field : Field} (use : Use)
    (holdsNodes : field ∈ nodeFields kind.layout) :
    kind.treatment use field =
      if (kind, field) ∈ silentSlots then .skipped
      else .searched (roleIn use (kind, field)) (conditionIn (kind, field)) := by
  have table : ∀ kind ∈ all, ∀ field ∈ nodeFields kind.layout,
      ∀ use ∈ [Use.reference, .target, .member],
        kind.treatment use field =
          if (kind, field) ∈ silentSlots then .skipped
          else .searched (roleIn use (kind, field)) (conditionIn (kind, field)) := by
    decide +kernel
  exact table kind (mem_all kind) field holdsNodes use (by cases use <;> decide)

theorem Node.scope_hides_iff {name : String} {kind : Kind} {field : Field}
    {parts : Parts kind.layout} (scope : (kind, field) ∈ scopeSlots) :
    (Node.mk kind parts).hides name = true ↔ (Node.mk kind parts).Binds name := by
  have table : ∀ slot ∈ scopeSlots,
      ¬ (slot.1 = .classDeclaration ∨ slot.1 = .classExpression) ∧ slot.1 ≠ .identifier := by
    decide
  obtain ⟨noClass, noIdentifier⟩ := table _ scope
  rw [hides_iff_binds noClass, and_iff_right noIdentifier]

theorem isClass_of_mem_classSlots {kind : Kind} {field : Field}
    (inside : (kind, field) ∈ classSlots) : kind = .classDeclaration ∨ kind = .classExpression := by
  have table : ∀ slot ∈ classSlots, slot.1 = .classDeclaration ∨ slot.1 = .classExpression := by
    decide
  exact table _ inside

/-- The condition of a slot that is not silent says that the step is neither silent nor shadowed. -/
theorem Step.holds_conditionIn_iff {name : String} {step : Step}
    (loud : step.slot ∉ silentSlots) :
    (conditionIn step.slot).holds (step.parent.circumstances name) = true ↔
      ¬ step.IsSilent ∧ ¬ step.IsShadowed name := by
  obtain ⟨kind, parts, field, child⟩ := step
  simp only [slot, parent] at loud ⊢
  simp only [IsSilent, IsShadowed, slot, parent, loud, false_or]
  by_cases atKey : (kind, field) ∈ keySlots
  · have apart : ∀ slot ∈ keySlots, slot ≠ (.exportNamedDeclaration, .specifiers) ∧
        slot ∉ scopeSlots ∧ slot ∉ classSlots := by decide
    obtain ⟨noExport, noScope, noClass⟩ := apart _ atKey
    simp [conditionIn, atKey, noExport, noScope, noClass, Condition.holds, Node.circumstances]
  · by_cases atExport : (kind, field) = (.exportNamedDeclaration, .specifiers)
    · obtain ⟨rfl, rfl⟩ := Prod.mk.inj atExport
      have noScope : (Kind.exportNamedDeclaration, Field.specifiers) ∉ scopeSlots := by decide
      have noClass : (Kind.exportNamedDeclaration, Field.specifiers) ∉ classSlots := by decide
      simp [conditionIn, atKey, noScope, noClass, Condition.holds, Node.circumstances]
    · by_cases atScope : (kind, field) ∈ scopeSlots
      · have apart : ∀ slot ∈ scopeSlots, slot ∉ classSlots := by decide
        have noClass := apart _ atScope
        simp [conditionIn, atKey, atExport, atScope, noClass, Condition.holds, Node.circumstances,
          ← Node.scope_hides_iff atScope]
      · by_cases atClass : (kind, field) ∈ classSlots
        · simp only [conditionIn, atKey, atExport, atScope, atClass, Condition.holds,
            Node.circumstances, ← Node.class_hides_iff (isClass_of_mem_classSlots atClass)]
          simp
        · simp [conditionIn, atKey, atExport, atScope, atClass, Condition.holds]

/-- A part is searched exactly when the step through it is neither silent nor shadowed. -/
theorem Step.use?_eq_some_iff {name : String} {use use' : Use} (step : Step)
    (member : (step.field, step.child) ∈ step.parts.children) :
    (step.kind.treatment use step.field).use? (step.parent.circumstances name) = some use' ↔
      ¬ step.IsSilent ∧ ¬ step.IsShadowed name ∧ roleIn use step.slot = use' := by
  rw [Kind.treatment_eq use (Parts.field_of_mem_children member)]
  change (if step.slot ∈ silentSlots then Treatment.skipped
    else .searched (roleIn use step.slot) (conditionIn step.slot)).use? _ = some use' ↔ _
  by_cases quiet : step.slot ∈ silentSlots
  · simp [quiet, Treatment.use?, IsSilent]
  · simp only [quiet, if_false, Treatment.use?, Option.ite_none_right_eq_some,
      holds_conditionIn_iff quiet, Option.some.injEq, and_assoc]

/-! ## Trails and the search -/

/-- The role of the node at the end of a trail that starts at code. -/
def roleAt : List Step → Use
  | [] => .reference
  | last :: earlier => roleIn (roleAt earlier) last.slot

theorem roleAt_eq_member_iff {steps : List Step} :
    roleAt steps = .member ↔
      ∃ last ∈ steps.head?, last.slot = (.objectPattern, .properties) := by
  cases steps with
  | nil => simp [roleAt]
  | cons last earlier =>
      simp only [List.head?_cons, Option.mem_def, Option.some.injEq, exists_eq_left', roleAt,
        roleIn]
      constructor
      · intro role
        split at role
        · cases role
        · split at role
          · assumption
          · cases role
      · intro atMembers
        rw [atMembers]
        rfl

/-- A node stands as a target exactly when it sits in a binding slot. -/
theorem roleAt_eq_target_iff {steps : List Step} :
    roleAt steps = .target ↔ EndsInBinding steps := by
  cases steps with
  | nil => simp [roleAt, EndsInBinding]
  | cons last earlier =>
      rw [EndsInBinding, ← roleAt_eq_member_iff, roleAt, roleIn]
      split
      · rename_i binding
        simpa using binding
      · rename_i noBinding
        split <;> simpa using noBinding

theorem Kind.isUse_iff {kind : Kind} {use : Use} :
    kind.isUse use = true ↔
      (kind = .identifier ∨ kind = .jsxIdentifier) ∧ (kind = .identifier → use ≠ .target) := by
  cases kind <;> simp [isUse]

/-- A node at the end of a trail is itself a use when the name and the position fit. -/
theorem Node.isUse_roleAt_iff {name : String} {steps : List Step} {kind : Kind}
    {parts : Parts kind.layout} :
    (kind.isUse (roleAt steps) = true ∧ parts.text? .name = some name) ↔
      (Node.mk kind parts).IsCalled name ∧
        ((Node.mk kind parts).isIdentifier = true → ¬ EndsInBinding steps) := by
  rw [Kind.isUse_iff, IsCalled, ← roleAt_eq_target_iff, isIdentifier, kind?]
  simp only [beq_iff_eq, Option.some.injEq, ne_eq]
  exact and_right_comm

/-- What is seen at the end of an open trail is seen from its root. -/
theorem Trail.use_mem_sightings {name : String} {root node : Node} {steps : List Step}
    (trail : Trail root steps node) (audible : ∀ step ∈ steps, ¬ step.IsSilent)
    (visible : ∀ step ∈ steps, ¬ step.IsShadowed name)
    (seen : Sighting.use ∈ node.sightings name (roleAt steps)) :
    Sighting.use ∈ root.sightings name .reference := by
  induction trail with
  | here => exact seen
  | @down steps kind parts field child trail member induction =>
      apply induction (fun step earlier => audible step (List.mem_cons_of_mem _ earlier))
        (fun step earlier => visible step (List.mem_cons_of_mem _ earlier))
      rw [Node.use_mem_sightings_mk]
      refine Or.inr ⟨field, child, _, member, ?_, seen⟩
      exact (Step.use?_eq_some_iff ⟨kind, parts, field, child⟩ member).mpr
        ⟨audible _ List.mem_cons_self, visible _ List.mem_cons_self, rfl⟩

/-- What is seen at the end of an open trail comes from a longer trail to a use. -/
theorem Trail.exists_useTrail {name : String} {root : Node} (node : Node) :
    ∀ {steps : List Step}, Trail root steps node → (∀ step ∈ steps, ¬ step.IsSilent) →
      (∀ step ∈ steps, ¬ step.IsShadowed name) →
        Sighting.use ∈ node.sightings name (roleAt steps) →
          ∃ steps target, UseTrail name root steps target := by
  induction node using Node.induction_on_children with
  | unsupported =>
      intro steps _ _ _ seen
      simp [Node.sightings] at seen
  | mk kind parts induction =>
      intro steps trail audible visible seen
      rcases Node.use_mem_sightings_mk.mp seen with
        own | ⟨field, child, use, member, searched, below⟩
      · obtain ⟨called, unbound⟩ := Node.isUse_roleAt_iff.mp own
        exact ⟨steps, _, trail, called, audible, unbound, visible⟩
      · obtain ⟨loud, clear, rfl⟩ :=
          (Step.use?_eq_some_iff ⟨kind, parts, field, child⟩ member).mp searched
        refine induction field child member (trail.down member) ?_ ?_ below
        · intro step inSteps
          rcases List.mem_cons.mp inSteps with rfl | earlier
          · exact loud
          · exact audible step earlier
        · intro step inSteps
          rcases List.mem_cons.mp inSteps with rfl | earlier
          · exact clear
          · exact visible step earlier

theorem Node.uses_iff_mem {name : String} {node : Node} :
    node.uses name = true ↔ Sighting.use ∈ node.sightings name .reference := by
  simp [Node.uses, Node.search, Search.ofSightings]

/-- A search for a name succeeds exactly when some trail leads to a use of it. -/
theorem Node.uses_iff_exists_useTrail (name : String) (node : Node) :
    node.uses name = true ↔ ∃ steps target, UseTrail name node steps target := by
  rw [Node.uses_iff_mem]
  constructor
  · intro seen
    exact Trail.exists_useTrail node .here (by simp) (by simp) seen
  · rintro ⟨steps, target, use⟩
    apply use.trail.use_mem_sightings use.audible use.visible
    cases target with
    | unsupported => exact use.called.elim
    | mk kind parts =>
        rw [Node.use_mem_sightings_mk]
        exact Or.inl (Node.isUse_roleAt_iff.mpr ⟨use.called, use.unbound⟩)

end TreeQuery
