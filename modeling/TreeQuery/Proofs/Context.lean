import TreeQuery.Proofs.Trail

/-!
# Contexts

A context is a syntax tree with a gap, where one node is left out. It is the list of frames from the
root down to the gap, and a frame is a node with a gap in the place of one of its children. Every
descendant of a node fills the gap of a context that the node is made from.
-/

namespace TreeQuery

/-- A part with a gap. -/
inductive OpenPart : Shape → Type where
  /-- The node is left out. -/
  | node : OpenPart .node
  /-- The optional node is there and left out. -/
  | optNode : OpenPart .optNode
  /-- A node of a list is left out. -/
  | nodes (before after : List Node) : OpenPart .nodes
  /-- A node of a list with holes is left out. -/
  | holes (before after : List (Option Node)) : OpenPart .holes

/-- The parts for some slots, one of them with a gap. -/
inductive OpenParts : List Slot → Type where
  /-- The gap is in the first part. -/
  | here {field : Field} {shape : Shape} {slots : List Slot} (head : OpenPart shape)
      (tail : Parts slots) : OpenParts (⟨field, shape⟩ :: slots)
  /-- The gap is in a later part. -/
  | later {field : Field} {shape : Shape} {slots : List Slot} (head : Part shape)
      (tail : OpenParts slots) : OpenParts (⟨field, shape⟩ :: slots)

/-- A node with a gap in the place of one of its children. -/
structure Frame where
  /-- The kind of the node. -/
  kind : Kind
  /-- Its parts. -/
  parts : OpenParts kind.layout

/-- The frames from the root of a tree down to a gap in it. -/
abbrev Context : Type :=
  List Frame

/-! ## Filling the gap -/

/-- The part with a node in its gap. -/
def OpenPart.plug (node : Node) {shape : Shape} : OpenPart shape → Part shape
  | .node => .node node
  | .optNode => .optNode (some node)
  | .nodes before after => .nodes (before ++ node :: after)
  | .holes before after => .holes (before ++ some node :: after)

/-- The parts with a node in their gap. -/
def OpenParts.plug (node : Node) {slots : List Slot} : OpenParts slots → Parts slots
  | .here head tail => .cons (head.plug node) tail
  | .later head tail => .cons head (tail.plug node)

/-- The node with a child in its gap. -/
def Frame.plug (frame : Frame) (node : Node) : Node :=
  .mk frame.kind (frame.parts.plug node)

/-- The tree with a node in its gap. -/
def Context.plug : Context → Node → Node
  | [], node => node
  | frame :: frames, node => frame.plug (Context.plug frames node)

theorem Context.plug_append (outer inner : Context) (node : Node) :
    Context.plug (outer ++ inner) node = outer.plug (inner.plug node) := by
  induction outer with
  | nil => rfl
  | cons frame frames induction => exact congrArg frame.plug induction

/-! ## Descendants fill gaps -/

theorem Part.exists_plug {shape : Shape} {part : Part shape} {child : Node}
    (present : child ∈ part.held) : ∃ gap : OpenPart shape, gap.plug child = part := by
  cases part with
  | node value =>
      obtain rfl := List.mem_singleton.mp present
      exact ⟨.node, rfl⟩
  | optNode value =>
      obtain rfl := Option.mem_toList.mp present
      exact ⟨.optNode, rfl⟩
  | nodes values =>
      have listed : child ∈ values := present
      obtain ⟨before, after, rfl⟩ := List.append_of_mem listed
      exact ⟨.nodes before after, rfl⟩
  | holes values =>
      have listed : some child ∈ values := by simpa [held] using present
      obtain ⟨before, after, rfl⟩ := List.append_of_mem listed
      exact ⟨.holes before after, rfl⟩
  | _ => cases present

theorem Parts.exists_plug {slots : List Slot} {parts : Parts slots} {field : Field} {child : Node}
    (member : (field, child) ∈ parts.children) :
    ∃ gap : OpenParts slots, gap.plug child = parts := by
  induction slots with
  | nil => cases parts; cases member
  | cons slot slots induction =>
      cases parts with
      | cons head tail =>
          rcases mem_children_cons.mp member with ⟨-, present⟩ | inTail
          · obtain ⟨gap, rfl⟩ := Part.exists_plug present
            exact ⟨.here gap tail, rfl⟩
          · obtain ⟨gap, rfl⟩ := induction inTail
            exact ⟨.later head gap, rfl⟩

/-- Whatever a trail leads to fills the gap of a context that the root is made from. -/
theorem Trail.exists_context {root target : Node} {steps : List Step}
    (trail : Trail root steps target) :
    ∃ context : Context, context.length = steps.length ∧ context.plug target = root := by
  induction trail with
  | here => exact ⟨[], rfl, rfl⟩
  | @down steps kind parts field child _ member induction =>
      obtain ⟨outer, length, plugged⟩ := induction
      obtain ⟨gap, filled⟩ := Parts.exists_plug member
      refine ⟨outer ++ [⟨kind, gap⟩], by simp [length], ?_⟩
      have inner : Context.plug [⟨kind, gap⟩] child = .mk kind parts :=
        congrArg (Node.mk kind) filled
      rw [Context.plug_append, inner, plugged]

end TreeQuery
