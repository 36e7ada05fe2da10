import TreeQuery.Node.Basic

/-!
# Trails through a syntax tree

A step goes from a node through one of its parts to a child that the part holds. A trail lists the
steps from a root down to one of its descendants, the last step first, so that the head of the list
says where the descendant sits. The children of a node are smaller than the node, which gives
induction over a tree without a look at its parts.
-/

namespace TreeQuery

/-- The nodes that a part holds, holes left out. -/
def Part.held {shape : Shape} : Part shape → List Node
  | .node value => [value]
  | .optNode value => value.toList
  | .nodes values => values
  | .holes values => values.filterMap id
  | _ => []

/-- The children among the parts, each with the name of the part that holds it. -/
def Parts.children {slots : List Slot} : Parts slots → List (Field × Node)
  | .nil => []
  | @Parts.cons field _ _ head tail => head.held.map (field, ·) ++ tail.children

theorem Parts.mem_children_cons {field wanted : Field} {shape : Shape} {slots : List Slot}
    {head : Part shape} {tail : Parts slots} {child : Node} :
    (wanted, child) ∈ (@Parts.cons field _ _ head tail).children ↔
      wanted = field ∧ child ∈ head.held ∨ (wanted, child) ∈ tail.children := by
  simp only [children, List.mem_append, List.mem_map, Prod.mk.injEq]
  constructor
  · rintro (⟨value, present, rfl, rfl⟩ | later)
    · exact Or.inl ⟨rfl, present⟩
    · exact Or.inr later
  · rintro (⟨rfl, present⟩ | later)
    · exact Or.inl ⟨child, present, rfl, rfl⟩
    · exact Or.inr later

/-- Whether a part of this shape can hold nodes. -/
def Shape.holdsNodes : Shape → Bool
  | .node | .optNode | .nodes | .holes => true
  | _ => false

theorem Part.holdsNodes_of_mem_held {shape : Shape} {part : Part shape} {child : Node}
    (present : child ∈ part.held) : shape.holdsNodes = true := by
  cases part <;> first | rfl | cases present

/-- The parts among some slots that can hold nodes. -/
def nodeFields (slots : List Slot) : List Field :=
  (slots.filter fun slot => slot.shape.holdsNodes).map Slot.field

theorem Parts.field_of_mem_children {slots : List Slot} {parts : Parts slots} {field : Field}
    {child : Node} (member : (field, child) ∈ parts.children) : field ∈ nodeFields slots := by
  induction slots with
  | nil => cases parts; cases member
  | cons slot slots induction =>
      cases parts with
      | cons head tail =>
          rcases mem_children_cons.mp member with ⟨rfl, present⟩ | later
          · simp [nodeFields, Part.holdsNodes_of_mem_held present]
          · have inTail := induction later
            simp only [nodeFields, List.mem_map, List.mem_filter] at inTail ⊢
            obtain ⟨found, ⟨inSlots, holds⟩, rfl⟩ := inTail
            exact ⟨found, ⟨List.mem_cons_of_mem _ inSlots, holds⟩, rfl⟩

/-! ## Induction over children -/

theorem Part.sizeOf_lt_of_mem_held {shape : Shape} {part : Part shape} {child : Node}
    (present : child ∈ part.held) : sizeOf child < sizeOf part := by
  cases part with
  | node value =>
      obtain rfl := List.mem_singleton.mp present
      simp
  | optNode value =>
      obtain rfl := Option.mem_toList.mp present
      simp
      omega
  | nodes values =>
      have bound := List.sizeOf_lt_of_mem (show child ∈ values from present)
      simp
      omega
  | holes values =>
      obtain ⟨value, inValues, rfl⟩ : ∃ value ∈ values, value = some child := by
        simpa [held] using present
      have bound := List.sizeOf_lt_of_mem inValues
      simp at bound ⊢
      omega
  | _ => cases present

theorem Parts.sizeOf_lt_of_mem_children {slots : List Slot} {parts : Parts slots} {field : Field}
    {child : Node} (member : (field, child) ∈ parts.children) : sizeOf child < sizeOf parts := by
  induction slots with
  | nil => cases parts; cases member
  | cons slot slots induction =>
      cases parts with
      | cons head tail =>
          rcases mem_children_cons.mp member with ⟨-, present⟩ | later
          · have bound := Part.sizeOf_lt_of_mem_held present
            simp
            omega
          · have bound := induction later
            simp
            omega

/-- What holds of a node when it holds of its children holds of every node. -/
theorem Node.induction_on_children {motive : Node → Prop} (unsupported : motive .unsupported)
    (mk : ∀ (kind : Kind) (parts : Parts kind.layout),
      (∀ field child, (field, child) ∈ parts.children → motive child) → motive (.mk kind parts)) :
    ∀ node, motive node
  | .unsupported => unsupported
  | .mk kind parts =>
      mk kind parts fun _ child member =>
        have : sizeOf child < sizeOf parts := Parts.sizeOf_lt_of_mem_children member
        induction_on_children unsupported mk child
termination_by node => sizeOf node
decreasing_by
  simp
  omega

/-- The same induction with the parts given as a row. -/
theorem Node.induction_on_make {motive : Node → Prop} (unsupported : motive .unsupported)
    (make : ∀ (kind : Kind) (row : Row Node kind.layout),
      (∀ field child, (field, child) ∈ (Parts.ofRow row).children → motive child) →
        motive (Node.make kind row)) :
    ∀ node, motive node := by
  apply Node.induction_on_children unsupported
  intro kind parts induction
  rw [← Node.make_row]
  apply make
  rw [Parts.ofRow_row]
  exact induction

/-! ## Steps and trails -/

/-- A step from a node through one of its parts to a child. -/
structure Step where
  /-- The kind of the node that the step leaves. -/
  kind : Kind
  /-- The parts of that node. -/
  parts : Parts kind.layout
  /-- The part that the step goes through. -/
  field : Field
  /-- The node that the step enters. -/
  child : Node

namespace Step

/-- The node that a step leaves. -/
def parent (step : Step) : Node :=
  .mk step.kind step.parts

/-- The kind of the node that a step leaves, with the part that it goes through. -/
def slot (step : Step) : Kind × Field :=
  (step.kind, step.field)

end Step

/-- The steps from a root down to a node, the last one first. -/
inductive Trail (root : Node) : List Step → Node → Prop where
  | here : Trail root [] root
  | down {steps : List Step} {kind : Kind} {parts : Parts kind.layout} {field : Field}
      {child : Node} (trail : Trail root steps (.mk kind parts))
      (member : (field, child) ∈ parts.children) :
      Trail root (⟨kind, parts, field, child⟩ :: steps) child

namespace Trail

/-- A trail continues where another one ends. -/
theorem append {root middle target : Node} {first second : List Step}
    (upper : Trail root first middle) (lower : Trail middle second target) :
    Trail root (second ++ first) target := by
  induction lower with
  | here => exact upper
  | down _ member induction => exact induction.down member

theorem child {kind : Kind} {parts : Parts kind.layout} {field : Field} {child target : Node}
    {steps : List Step} (member : (field, child) ∈ parts.children)
    (trail : Trail child steps target) :
    Trail (.mk kind parts) (steps ++ [⟨kind, parts, field, child⟩]) target :=
  append (here.down member) trail

/-- Every trail from a node is empty or starts with a step to one of its children. -/
theorem cases_first {root target : Node} {steps : List Step} (trail : Trail root steps target) :
    (steps = [] ∧ target = root) ∨
      ∃ (kind : Kind) (parts : Parts kind.layout) (field : Field) (child : Node)
        (later : List Step), root = .mk kind parts ∧ (field, child) ∈ parts.children ∧
          steps = later ++ [⟨kind, parts, field, child⟩] ∧ Trail child later target := by
  induction trail with
  | here => exact Or.inl ⟨rfl, rfl⟩
  | @down steps kind parts field child _ member induction =>
      right
      rcases induction with ⟨rfl, rfl⟩ | ⟨kind', parts', field', child', later, rootEq, member',
        rfl, trail'⟩
      · exact ⟨kind, parts, field, child, [], rfl, member, rfl, here⟩
      · exact ⟨kind', parts', field', child', _, rootEq, member', rfl, trail'.down member⟩

end Trail

/-- A property holds of a node and of all its descendants. -/
def Node.Throughout (property : Node → Prop) (node : Node) : Prop :=
  ∀ steps inner, Trail node steps inner → property inner

namespace Node.Throughout

theorem root {property : Node → Prop} {node : Node} (all : node.Throughout property) :
    property node :=
  all [] node .here

theorem child {property : Node → Prop} {kind : Kind} {parts : Parts kind.layout}
    (all : (Node.mk kind parts).Throughout property) {field : Field} {child : Node}
    (member : (field, child) ∈ parts.children) : child.Throughout property :=
  fun _ _ trail => all _ _ (trail.child member)

theorem unsupported {property : Node → Prop} (atRoot : property .unsupported) :
    Node.unsupported.Throughout property := by
  intro steps inner trail
  rcases trail.cases_first with ⟨-, rfl⟩ | ⟨_, _, _, _, _, same, -⟩
  · exact atRoot
  · cases same

/-- It is enough to look at a node and its children in turn. -/
theorem mk {property : Node → Prop} {kind : Kind} {parts : Parts kind.layout}
    (atRoot : property (.mk kind parts))
    (below : ∀ member ∈ parts.children, member.2.Throughout property) :
    (Node.mk kind parts).Throughout property := by
  intro steps inner trail
  rcases trail.cases_first with ⟨-, rfl⟩ | ⟨_, _, field, child, later, same, member, -, lower⟩
  · exact atRoot
  · cases same
    exact below (field, child) member later inner lower

end Node.Throughout

end TreeQuery
