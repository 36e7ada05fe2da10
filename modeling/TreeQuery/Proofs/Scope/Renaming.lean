import Mathlib.Data.Set.Function
import TreeQuery.Proofs.Scope.Reference

/-!
# Renaming identifiers

A renaming changes the names of identifiers of both kinds, wherever they stand, and nothing else.
The search treats names only by equality, so a renaming that keeps apart the names that it meets
changes neither what a search comes upon nor in which order.
-/

namespace TreeQuery

/-- Whether nodes of this kind are identifiers, whose only text is their name. -/
def Kind.isNamed : Kind → Bool
  | .identifier | .jsxIdentifier => true
  | _ => false

section Renaming

variable (newName : String → String)

mutual

/-- The node with a renaming applied to the names of all identifiers in it. -/
def Node.rename : Node → Node
  | .mk kind parts => .mk kind (parts.rename kind.isNamed)
  | .unsupported => .unsupported

/-- The parts of a renamed node, which may be an identifier itself. -/
def Parts.rename (named : Bool) {slots : List Slot} : Parts slots → Parts slots
  | .nil => .nil
  | .cons head tail => .cons (head.rename named) (tail.rename named)

/-- A part of a renamed node. -/
def Part.rename (named : Bool) {shape : Shape} : Part shape → Part shape
  | .node value => .node value.rename
  | .optNode none => .optNode none
  | .optNode (some value) => .optNode (some value.rename)
  | .nodes values => .nodes (Node.renameList values)
  | .holes values => .holes (Node.renameHoles values)
  | .text value => .text (if named then newName value else value)
  | .flag value => .flag value
  | .optText value => .optText value
  | .textOrEmpty value => .textOrEmpty value
  | .choice word => .choice word
  | .literal value => .literal value
  | .regex value => .regex value
  | .chunkText value => .chunkText value
  | .chunk value => .chunk value
  | .chunks values => .chunks values

/-- The renamed nodes of a list. -/
def Node.renameList : List Node → List Node
  | [] => []
  | value :: values => value.rename :: Node.renameList values

/-- The renamed nodes of a list with holes. -/
def Node.renameHoles : List (Option Node) → List (Option Node)
  | [] => []
  | none :: values => none :: Node.renameHoles values
  | some value :: values => some value.rename :: Node.renameHoles values

end

end Renaming

/-! ## Parts of a renamed node -/

section Parts

variable {newName : String → String}

theorem Parts.text?_rename {named : Bool} {wanted : Field} {slots : List Slot}
    (parts : Parts slots) :
    (parts.rename newName named).text? wanted =
      (parts.text? wanted).map (if named then newName else id) := by
  induction slots with
  | nil => cases parts; rfl
  | cons slot slots induction =>
      cases parts with
      | @cons field _ _ head tail =>
          simp only [Parts.rename, Parts.text?, induction]
          split
          · cases head <;> cases named <;> first | rfl | (rename_i value; cases value <;> rfl)
          · rfl

theorem Parts.isSet_rename {named : Bool} {wanted : Field} {slots : List Slot}
    (parts : Parts slots) :
    (parts.rename newName named).isSet wanted = parts.isSet wanted := by
  induction slots with
  | nil => cases parts; rfl
  | cons slot slots induction =>
      cases parts with
      | @cons field _ _ head tail =>
          simp only [Parts.rename, Parts.isSet, induction]
          split
          · cases head <;> first | rfl | (rename_i value; cases value <;> rfl)
          · rfl

theorem Parts.isPresent_rename {named : Bool} {wanted : Field} {slots : List Slot}
    (parts : Parts slots) :
    (parts.rename newName named).isPresent wanted = parts.isPresent wanted := by
  induction slots with
  | nil => cases parts; rfl
  | cons slot slots induction =>
      cases parts with
      | @cons field _ _ head tail =>
          simp only [Parts.rename, Parts.isPresent, induction]
          split
          · cases head <;> first | rfl | (rename_i value; cases value <;> rfl)
          · rfl

end Parts

/-! ## Bound names -/

section Names

variable (newName : String → String)

mutual

/-- A renamed node binds the renamed names. -/
theorem Node.names_rename (view : View) :
    ∀ node : Node, (node.rename newName).names view = (node.names view).map newName
  | .unsupported => rfl
  | .mk kind parts => by
      simp only [Node.rename, Node.names, Parts.names_rename, Parts.text?_rename, List.map_append]
      congr 1
      split
      · rename_i own
        simp [own.1, Kind.isNamed, Option.toList_map]
      · rfl

theorem Parts.names_rename (table : Field → Option View) (named : Bool) {slots : List Slot} :
    ∀ parts : Parts slots,
      (parts.rename newName named).names table = (parts.names table).map newName
  | .nil => rfl
  | @Parts.cons field _ _ head tail => by
      simp only [Parts.rename, Parts.names, Parts.names_rename table named tail, List.map_append]
      cases table field with
      | none => rfl
      | some view => simp only [Part.names_rename view named head]

theorem Part.names_rename (view : View) (named : Bool) {shape : Shape} :
    ∀ part : Part shape, (part.rename newName named).names view = (part.names view).map newName
  | .node value => Node.names_rename view value
  | .optNode none => rfl
  | .optNode (some value) => Node.names_rename view value
  | .nodes values => Node.namesOfList_rename view values
  | .holes values => Node.namesOfHoles_rename view values
  | .flag _ | .text _ | .optText _ | .textOrEmpty _ | .choice _ => rfl
  | .literal _ | .regex _ | .chunkText _ | .chunk _ | .chunks _ => rfl

theorem Node.namesOfList_rename (view : View) :
    ∀ values : List Node,
      Node.namesOfList view (Node.renameList newName values) =
        (Node.namesOfList view values).map newName
  | [] => rfl
  | value :: values => by
      simp only [Node.renameList, Node.namesOfList, List.map_append,
        Node.names_rename view value, Node.namesOfList_rename view values]

theorem Node.namesOfHoles_rename (view : View) :
    ∀ values : List (Option Node),
      Node.namesOfHoles view (Node.renameHoles newName values) =
        (Node.namesOfHoles view values).map newName
  | [] => rfl
  | none :: values => Node.namesOfHoles_rename view values
  | some value :: values => by
      simp only [Node.renameHoles, Node.namesOfHoles, List.map_append,
        Node.names_rename view value, Node.namesOfHoles_rename view values]

end

end Names

/-! ## Names that occur -/

/-- An identifier of either kind with the given name stands somewhere in a node. -/
def Node.Mentions (name : String) (node : Node) : Prop :=
  ∃ steps target, Trail node steps target ∧ target.IsCalled name

namespace Node

theorem not_mentions_unsupported {name : String} : ¬ Node.unsupported.Mentions name := by
  rintro ⟨steps, target, trail, called⟩
  rcases trail.cases_first with ⟨-, rfl⟩ | ⟨_, _, _, _, _, same, -⟩
  · exact called
  · cases same

theorem mentions_mk_iff {name : String} {kind : Kind} {parts : Parts kind.layout} :
    (Node.mk kind parts).Mentions name ↔
      (Node.mk kind parts).IsCalled name ∨
        ∃ member ∈ parts.children, member.2.Mentions name := by
  constructor
  · rintro ⟨steps, target, trail, called⟩
    rcases trail.cases_first with ⟨-, rfl⟩ | ⟨_, _, field, child, later, same, member, -, lower⟩
    · exact Or.inl called
    · cases same
      exact Or.inr ⟨(field, child), member, later, target, lower, called⟩
  · rintro (called | ⟨⟨field, child⟩, member, steps, target, trail, called⟩)
    · exact ⟨[], _, .here, called⟩
    · exact ⟨_, target, trail.child member, called⟩

/-- What a node mentions that is no identifier stands in one of its children. -/
theorem Mentions.inside {name : String} {kind : Kind} {parts : Parts kind.layout}
    (plain : kind.isNamed = false) (mentions : (Node.mk kind parts).Mentions name) :
    ∃ member ∈ parts.children, member.2.Mentions name := by
  rcases mentions_mk_iff.mp mentions with ⟨rfl | rfl, -⟩ | inside
  · cases plain
  · cases plain
  · exact inside

theorem mentions_of_mem_names {name : String} {node : Node} :
    ∀ {view : View}, name ∈ node.names view → node.Mentions name := by
  induction node using induction_on_children with
  | unsupported => simp [names]
  | mk kind parts induction =>
      intro view bound
      rcases mem_names_mk.mp bound with ⟨isIdentifier, -, held⟩ |
        ⟨field, child, _, member, -, below⟩
      · exact mentions_mk_iff.mpr (Or.inl ⟨Or.inl isIdentifier, held⟩)
      · exact mentions_mk_iff.mpr (Or.inr ⟨_, member, induction field child member below⟩)

end Node

/-! ## The search -/

section Search

variable {newName : String → String} {name : String}

theorem Node.sightingsOfList_rename {use : Use} {values : List Node}
    (same : ∀ value ∈ values,
      (value.rename newName).sightings (newName name) use = value.sightings name use) :
    Node.sightingsOfList (newName name) use (Node.renameList newName values) =
      Node.sightingsOfList name use values := by
  induction values with
  | nil => rfl
  | cons value values induction =>
      obtain ⟨first, others⟩ := List.forall_mem_cons.mp same
      rw [Node.renameList, Node.sightingsOfList, Node.sightingsOfList, first, induction others]

theorem Node.sightingsOfHoles_rename {use : Use} {values : List (Option Node)}
    (same : ∀ value ∈ values.filterMap id,
      (value.rename newName).sightings (newName name) use = value.sightings name use) :
    Node.sightingsOfHoles (newName name) use (Node.renameHoles newName values) =
      Node.sightingsOfHoles name use values := by
  induction values with
  | nil => rfl
  | cons value values induction =>
      cases value with
      | none => exact induction same
      | some value =>
          obtain ⟨first, others⟩ := List.forall_mem_cons.mp same
          rw [Node.renameHoles, Node.sightingsOfHoles, Node.sightingsOfHoles, first,
            induction others]

theorem Part.sightings_rename {use : Use} {named : Bool} {shape : Shape} {part : Part shape}
    (same : ∀ child ∈ part.held,
      (child.rename newName).sightings (newName name) use = child.sightings name use) :
    (part.rename newName named).sightings (newName name) use = part.sightings name use := by
  cases part with
  | node value => exact same value List.mem_cons_self
  | optNode value =>
      cases value with
      | none => rfl
      | some value => exact same value List.mem_cons_self
  | nodes values => exact Node.sightingsOfList_rename same
  | holes values => exact Node.sightingsOfHoles_rename same
  | _ => rfl

theorem Parts.sightings_rename {table : Field → Option Use} {deferred : Field → Bool}
    {named : Bool} {slots : List Slot} {parts : Parts slots}
    (same : ∀ field child use, (field, child) ∈ parts.children →
      (child.rename newName).sightings (newName name) use = child.sightings name use) :
    (parts.rename newName named).sightings (newName name) table deferred =
      parts.sightings name table deferred := by
  induction slots with
  | nil => cases parts; rfl
  | cons slot slots induction =>
      cases parts with
      | @cons field _ _ head tail =>
          have inHead : ∀ use, (head.rename newName named).sightings (newName name) use =
              head.sightings name use := fun use =>
            Part.sightings_rename fun child present =>
              same field child use (mem_children_cons.mpr (Or.inl ⟨rfl, present⟩))
          have inTail := induction fun found child use later =>
            same found child use (mem_children_cons.mpr (Or.inr later))
          simp only [Parts.rename, Parts.sightings, inHead, inTail]

/-- A renaming that keeps the names in a node apart keeps what the node hides. -/
theorem Node.hides_rename {node : Node}
    (apart : Set.InjOn newName (insert name {other | node.Mentions other})) :
    (node.rename newName).hides (newName name) = node.hides name := by
  rw [Bool.eq_iff_iff, hides_eq_true, hides_eq_true, names_rename, List.mem_map]
  constructor
  · rintro ⟨other, bound, same⟩
    have mentioned : other ∈ insert name {other | node.Mentions other} :=
      Or.inr (mentions_of_mem_names bound)
    rwa [← apart mentioned (Set.mem_insert ..) same]
  · intro bound
    exact ⟨name, bound, rfl⟩

theorem Node.circumstances_rename {node : Node}
    (apart : Set.InjOn newName (insert name {other | node.Mentions other})) :
    (node.rename newName).circumstances (newName name) = node.circumstances name := by
  cases node with
  | unsupported => rfl
  | mk kind parts =>
      have hidden := hides_rename apart
      rw [rename] at hidden ⊢
      simp only [circumstances, Parts.isSet_rename, Parts.isPresent_rename, hidden]

/-- An identifier is a use of the renamed name exactly when it was a use of the name. -/
theorem Node.ownSightings_rename {kind : Kind} {parts : Parts kind.layout} {use : Use}
    (apart : Set.InjOn newName (insert name {other | (Node.mk kind parts).Mentions other})) :
    kind.ownSightings use ((parts.rename newName kind.isNamed).text? .name) (newName name) =
      kind.ownSightings use (parts.text? .name) name := by
  unfold Kind.ownSightings
  by_cases own : kind.isUse use = true
  · have identifies : kind = .identifier ∨ kind = .jsxIdentifier := by
      obtain ⟨rfl, -⟩ | rfl := Kind.isUse_iff.mp own
      · exact Or.inl rfl
      · exact Or.inr rfl
    have named : kind.isNamed = true := by rcases identifies with rfl | rfl <;> rfl
    have sameName : (parts.text? .name).map newName = some (newName name) ↔
        parts.text? .name = some name := by
      cases held : parts.text? .name with
      | none => simp
      | some other =>
          have mentioned : other ∈ insert name {other | (Node.mk kind parts).Mentions other} :=
            Or.inr (mentions_mk_iff.mpr (Or.inl ⟨identifies, held⟩))
          simp only [Option.map_some, Option.some.injEq]
          exact ⟨apart mentioned (Set.mem_insert ..), congrArg newName⟩
    simp only [own, true_and, Parts.text?_rename, named, if_true, sameName]
  · simp [own]

/-- Under a renaming that keeps the names in a node apart, the search for the renamed name comes
upon the same things in the same order. -/
theorem Node.sightings_rename (node : Node)
    (apart : Set.InjOn newName (insert name {other | node.Mentions other})) :
    ∀ use, (node.rename newName).sightings (newName name) use = node.sightings name use := by
  induction node using induction_on_children with
  | unsupported => exact fun _ => rfl
  | mk kind parts induction =>
      intro use
      have below : ∀ field child use, (field, child) ∈ parts.children →
          (child.rename newName).sightings (newName name) use = child.sightings name use := by
        intro field child use member
        refine induction field child member (apart.mono ?_) use
        exact Set.insert_subset_insert fun other mentioned =>
          mentions_mk_iff.mpr (Or.inr ⟨_, member, mentioned⟩)
      have circumstances := circumstances_rename apart
      rw [rename] at circumstances ⊢
      simp only [sightings, circumstances, ownSightings_rename apart,
        Parts.sightings_rename below]

end Search

/-- A report with a renaming applied to the identifier that it names. -/
def Diagnostic.rename (newName : String → String) : Diagnostic → Diagnostic
  | .unsupportedNode identifier => .unsupportedNode (newName identifier)
  | .notStatic kind => .notStatic kind

namespace Node

/-- Renaming all identifiers, by a renaming that keeps apart the name searched for and the names in
the node, changes neither the answer of a search nor its reports but for the name in them. -/
theorem search_rename (newName : String → String) (name : String) (node : Node)
    (apart : Set.InjOn newName (insert name {other | node.Mentions other})) :
    ((node.rename newName).search (newName name)).found = (node.search name).found ∧
      ((node.rename newName).search (newName name)).diagnostics =
        (node.search name).diagnostics.map (Diagnostic.rename newName) ∧
      (∀ diagnostic ∈ (node.search name).diagnostics, diagnostic = .unsupportedNode name) := by
  have same := node.sightings_rename apart .reference
  refine ⟨?_, ?_, ?_⟩
  · rw [search, search, same, Search.ofSightings, Search.ofSightings]
  · rw [search, search, same, Search.ofSightings, Search.ofSightings, List.map_map]
    rfl
  · simp [search, Search.ofSightings]

/-- Exchanging the two names of an arrow function and its block exchanges them in the report. All
other names would become one, but none of them occurs. -/
theorem search_rename_exchange :
    let newName := fun text => if text = "foo" then "bar" else "foo"
    let arrow := make .arrowFunctionExpression (none, [make .identifier ("bar", ())],
      make .identifier ("foo", ()), false, false, true, ())
    let node := make .blockStatement
      ([.unsupported, make .expressionStatement (arrow, none, ())], ())
    newName "baz" = newName "bar" ∧
      Set.InjOn newName (insert "foo" {other | node.Mentions other}) ∧
        ((node.rename newName).search "bar").found = true ∧
          ((node.rename newName).search "bar").diagnostics = [.unsupportedNode "bar"] := by
  intro newName arrow node
  have ofName : ∀ {other text}, (make .identifier (text, ())).Mentions other → text = other := by
    intro other text mentions
    rcases mentions_mk_iff.mp mentions with ⟨-, held⟩ | ⟨_, ⟨⟩, -⟩
    exact Option.some.inj held
  have mentioned : ∀ other, node.Mentions other → other = "bar" ∨ other = "foo" := by
    intro other mentions
    obtain ⟨_, _ | ⟨_, _ | ⟨_, ⟨⟩⟩⟩, inBlock⟩ := mentions.inside rfl
    · exact absurd inBlock not_mentions_unsupported
    · obtain ⟨_, _ | ⟨_, ⟨⟩⟩, inStatement⟩ := Mentions.inside rfl inBlock
      obtain ⟨_, _ | ⟨_, _ | ⟨_, ⟨⟩⟩⟩, inArrow⟩ := Mentions.inside rfl inStatement
      · exact Or.inl (ofName inArrow).symm
      · exact Or.inr (ofName inArrow).symm
  have apart : Set.InjOn newName (insert "foo" {other | node.Mentions other}) := by
    have pair : Set.InjOn newName {"bar", "foo"} := by
      rintro _ (rfl | rfl) _ (rfl | rfl) same
      · rfl
      · exact absurd same (by decide)
      · exact absurd same (by decide)
      · rfl
    refine pair.mono (Set.insert_subset (Or.inr rfl) mentioned)
  obtain ⟨found, reports, -⟩ := search_rename newName "foo" node apart
  exact ⟨rfl, apart, found.trans (by decide), reports.trans (by decide)⟩

end Node

end TreeQuery
