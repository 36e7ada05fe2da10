import Mathlib.Data.List.Forall2
import TreeQuery.Proofs.Scope.Reference

/-!
# The order of siblings

Declarations are hoisted and a use counts wherever it stands, so the order of statements, arguments,
members and other siblings makes no difference to what a node binds and to whether it uses a name.
The lists of a tree may be permuted, all of them at once, and the answer of a search stays the same.
Its reports do not: they end at the first use.
-/

namespace TreeQuery

mutual

/-- Two nodes differ only in the order of siblings, at any depth. -/
inductive Node.Reordered : Node → Node → Prop where
  | unsupported : Node.Reordered .unsupported .unsupported
  | mk {kind : Kind} {parts others : Parts kind.layout} (inside : Parts.Reordered parts others) :
      Node.Reordered (.mk kind parts) (.mk kind others)

/-- The parts for the same slots differ only in the order of siblings. -/
inductive Parts.Reordered : {slots : List Slot} → Parts slots → Parts slots → Prop where
  | nil : Parts.Reordered .nil .nil
  | cons {field : Field} {shape : Shape} {slots : List Slot} {head other : Part shape}
      {tail rest : Parts slots} (here : Part.Reordered head other)
      (later : Parts.Reordered tail rest) :
      Parts.Reordered (@Parts.cons field _ _ head tail) (@Parts.cons field _ _ other rest)

/-- Two parts differ only in the order of siblings: a list is permuted, and then every node in it is
reordered inside. -/
inductive Part.Reordered : {shape : Shape} → Part shape → Part shape → Prop where
  | refl {shape : Shape} (part : Part shape) : Part.Reordered part part
  | node {value other : Node} (inside : Node.Reordered value other) :
      Part.Reordered (.node value) (.node other)
  | optNode {value other : Node} (inside : Node.Reordered value other) :
      Part.Reordered (.optNode (some value)) (.optNode (some other))
  | nodes {values middle others : List Node} (perm : values.Perm middle)
      (inside : List.Forall₂ Node.Reordered middle others) :
      Part.Reordered (.nodes values) (.nodes others)
  | holes {values middle others : List (Option Node)} (perm : values.Perm middle)
      (inside : List.Forall₂ (Option.Rel Node.Reordered) middle others) :
      Part.Reordered (.holes values) (.holes others)

end

theorem Parts.Reordered.refl {slots : List Slot} (parts : Parts slots) :
    parts.Reordered parts := by
  induction slots with
  | nil =>
      cases parts
      exact .nil
  | cons slot slots induction =>
      cases parts with
      | cons head tail => exact .cons (.refl head) (induction tail)

theorem Node.Reordered.refl (node : Node) : node.Reordered node := by
  cases node with
  | mk kind parts => exact .mk (.refl parts)
  | unsupported => exact .unsupported

/-- What is no node stays: the texts and the flags, and whether an optional node is there. -/
theorem Parts.Reordered.scalars_eq {wanted : Field} {slots : List Slot} {parts others : Parts slots}
    (reordered : parts.Reordered others) :
    parts.text? wanted = others.text? wanted ∧ parts.isSet wanted = others.isSet wanted ∧
      parts.isPresent wanted = others.isPresent wanted := by
  induction slots with
  | nil =>
      cases reordered
      exact ⟨rfl, rfl, rfl⟩
  | cons slot slots induction =>
      cases reordered with
      | @cons field _ _ head other tail rest here later =>
          have same : head.text? = other.text? ∧ head.isSet = other.isSet ∧
              head.isPresent = other.isPresent := by
            cases here <;> exact ⟨rfl, rfl, rfl⟩
          obtain ⟨text, flag, present⟩ := induction later
          simp only [text?, isSet, isPresent, same, text, flag, present, and_self]

/-! ## Children correspond -/

theorem exists_mem_iff_of_forall₂ {α β : Type} {R : α → β → Prop} {P : α → Prop} {Q : β → Prop}
    {values : List α} {others : List β} (related : List.Forall₂ R values others)
    (same : ∀ value ∈ values, ∀ other, R value other → (P value ↔ Q other)) :
    (∃ value ∈ values, P value) ↔ ∃ other ∈ others, Q other := by
  induction related with
  | nil => simp
  | cons here _ induction =>
      obtain ⟨sameHere, sameLater⟩ := List.forall_mem_cons.mp same
      rw [List.exists_mem_cons_iff, List.exists_mem_cons_iff, sameHere _ here, induction sameLater]

/-- If a property of children survives reordering, one child of a part has it exactly if one child
of the reordered part does. -/
theorem Part.Reordered.exists_held_iff {shape : Shape} {part other : Part shape}
    (reordered : part.Reordered other) {P : Node → Prop}
    (same : ∀ child ∈ part.held, ∀ node, child.Reordered node → (P child ↔ P node)) :
    (∃ child ∈ part.held, P child) ↔ ∃ child ∈ other.held, P child := by
  cases reordered with
  | refl => rfl
  | node inside => simpa [Part.held] using same _ (by simp [Part.held]) _ inside
  | optNode inside => simpa [Part.held] using same _ (by simp [Part.held]) _ inside
  | @nodes values middle others perm inside =>
      have permuted : (∃ child ∈ values, P child) ↔ ∃ child ∈ middle, P child := by
        simp only [perm.mem_iff]
      refine permuted.trans (exists_mem_iff_of_forall₂ inside fun child present => ?_)
      exact same child (perm.mem_iff.mpr present)
  | @holes values middle others perm inside =>
      -- A hole has no child, so the property is asked of what stands in a place, if anything does.
      have inPlaces : ∀ values : List (Option Node),
          (∃ child ∈ (Part.holes values).held, P child) ↔
            ∃ value ∈ values, ∃ child, value = some child ∧ P child := by
        intro values
        simp [Part.held]
      rw [inPlaces, inPlaces]
      simp only [perm.mem_iff]
      refine exists_mem_iff_of_forall₂ inside fun value present other related => ?_
      cases related with
      | none => rfl
      | some inside =>
          have listed : some _ ∈ values := perm.mem_iff.mpr present
          simpa using same _ (by simpa [Part.held] using listed) _ inside

theorem Parts.exists_child_cons_iff {field : Field} {shape : Shape} {slots : List Slot}
    {head : Part shape} {tail : Parts slots} {P : Field → Node → Prop} :
    (∃ wanted child, (wanted, child) ∈ (@Parts.cons field _ _ head tail).children ∧
      P wanted child) ↔
      (∃ child ∈ head.held, P field child) ∨
        ∃ wanted child, (wanted, child) ∈ tail.children ∧ P wanted child := by
  simp only [mem_children_cons]
  constructor
  · rintro ⟨wanted, child, ⟨rfl, present⟩ | present, holds⟩
    · exact .inl ⟨child, present, holds⟩
    · exact .inr ⟨wanted, child, present, holds⟩
  · rintro (⟨child, present, holds⟩ | ⟨wanted, child, present, holds⟩)
    · exact ⟨field, child, .inl ⟨rfl, present⟩, holds⟩
    · exact ⟨wanted, child, .inr present, holds⟩

theorem Parts.Reordered.exists_child_iff {slots : List Slot} {parts others : Parts slots}
    (reordered : parts.Reordered others) {P : Field → Node → Prop}
    (same : ∀ field child, (field, child) ∈ parts.children →
      ∀ node, child.Reordered node → (P field child ↔ P field node)) :
    (∃ field child, (field, child) ∈ parts.children ∧ P field child) ↔
      ∃ field child, (field, child) ∈ others.children ∧ P field child := by
  induction slots with
  | nil => cases reordered; rfl
  | cons slot slots induction =>
      cases reordered with
      | @cons field _ _ head other tail rest here later =>
          rw [exists_child_cons_iff, exists_child_cons_iff]
          refine or_congr (here.exists_held_iff fun child present => ?_) (induction later ?_)
          · exact same field child (mem_children_cons.mpr (.inl ⟨rfl, present⟩))
          · intro wanted child present
            exact same wanted child (mem_children_cons.mpr (.inr present))

/-! ## Searches -/

namespace Node

/-- Reordered nodes bind the same names. -/
theorem Reordered.mem_names_iff {node other : Node} (reordered : node.Reordered other)
    {name : String} (view : View) : name ∈ node.names view ↔ name ∈ other.names view := by
  induction node using Node.induction_on_children generalizing other view with
  | unsupported =>
      cases reordered
      rfl
  | mk kind parts induction =>
      cases reordered with
      | mk inside =>
          rw [mem_names_mk, mem_names_mk, inside.scalars_eq.1]
          simp only [exists_and_left]
          refine or_congr_right (inside.exists_child_iff fun field child present node below => ?_)
          simp only [induction field child present below]

theorem Reordered.circumstances_eq {node other : Node} (reordered : node.Reordered other)
    (name : String) : node.circumstances name = other.circumstances name := by
  have hidden : node.hides name = other.hides name := by
    rw [Bool.eq_iff_iff, hides_eq_true, hides_eq_true, reordered.mem_names_iff]
  cases reordered with
  | unsupported => rfl
  | mk inside => simp only [circumstances, inside.scalars_eq, hidden]

/-- A use is seen in both of two reordered nodes or in neither. -/
theorem Reordered.use_mem_sightings_iff {node other : Node} (reordered : node.Reordered other)
    {name : String} (use : Use) :
    Sighting.use ∈ node.sightings name use ↔ Sighting.use ∈ other.sightings name use := by
  induction node using Node.induction_on_children generalizing other use with
  | unsupported =>
      cases reordered
      rfl
  | mk kind parts induction =>
      have circumstances := reordered.circumstances_eq name
      cases reordered with
      | mk inside =>
          rw [use_mem_sightings_mk, use_mem_sightings_mk, inside.scalars_eq.1, circumstances]
          simp only [exists_and_left]
          refine or_congr_right (inside.exists_child_iff fun field child present node below => ?_)
          simp only [induction field child present below]

/-- Whether a node uses a name does not depend on the order of siblings in it, and whether some of
several nodes does not on their order. -/
theorem uses_eq_of_reordered (name : String) :
    (∀ node other : Node, node.Reordered other → node.uses name = other.uses name) ∧
    ∀ nodes others : List Node, nodes.Perm others →
      (searchAll name nodes).found = (searchAll name others).found := by
  constructor
  · intro node other reordered
    rw [Bool.eq_iff_iff, uses_iff_mem, uses_iff_mem, reordered.use_mem_sightings_iff]
  · intro nodes others perm
    have found : ∀ nodes, (searchAll name nodes).found = true ↔
        ∃ node ∈ nodes, Sighting.use ∈ node.sightings name .reference := by
      intro nodes
      rw [← mem_sightingsOfList]
      simp [searchAll, Search.ofSightings]
    rw [Bool.eq_iff_iff, found, found]
    simp only [perm.mem_iff]

/-- The statements of a block change places, and so do the arguments of a call in one of them. -/
theorem uses_eq_of_reordered_block :
    let foo := make .identifier ("foo", ())
    let empty := make .emptyStatement ()
    let call (arguments : List Node) := make .expressionStatement
      (make .callExpression (make .super (), arguments, false, ()), none, ())
    let node := make .blockStatement ([call [foo, .unsupported], empty], ())
    let other := make .blockStatement ([empty, call [.unsupported, foo]], ())
    node.uses "foo" = other.uses "foo" ∧ other.uses "foo" = true ∧
      (searchAll "foo" [foo, empty]).found = (searchAll "foo" [empty, foo]).found := by
  intro foo empty call node other
  have calls : (call [foo, .unsupported]).Reordered (call [.unsupported, foo]) := by
    have arguments : Part.Reordered (.nodes [foo, .unsupported]) (.nodes [.unsupported, foo]) :=
      .nodes (.swap ..) (.cons .unsupported (.cons (.refl foo) .nil))
    exact .mk (.cons (.node (.mk (.cons (.refl _) (.cons arguments (.refl _))))) (.refl _))
  have blocks : node.Reordered other :=
    .mk (.cons (.nodes (.swap ..) (.cons (.refl empty) (.cons calls .nil))) .nil)
  exact ⟨(uses_eq_of_reordered "foo").1 node other blocks, by decide,
    (uses_eq_of_reordered "foo").2 _ _ (.swap ..)⟩

end Node

end TreeQuery
