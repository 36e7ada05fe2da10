import Mathlib.Data.List.Forall2
import TreeQuery.Proofs.Context
import TreeQuery.Proofs.Static.Run

/-!
# Evaluation in a context

Outcomes are ordered flatly: an unknown one is below every other, and a known one only below itself.
The outcome of a node is monotone in the outcomes of its children, whatever the kind of the node, so
the outcome of a tree is monotone in the outcome of the node that fills its gap. Hence a node may be
replaced by the literal of its value, and an unknown one that did not matter by anything.
-/

namespace TreeQuery

namespace Evaluation

/-- The flat order: an unknown outcome is below every other, and a known one only below itself. -/
def Below (a b : Evaluation) : Prop :=
  a.toOption = none ∨ a.toOption = b.toOption

theorem below_iff {a b : Evaluation} : a.Below b ↔ ∀ value, a = .ok value → b = .ok value := by
  cases a with
  | error obstacle => exact ⟨fun _ _ => nofun, fun _ => Or.inl rfl⟩
  | ok held =>
      cases b with
      | error obstacle => simp [Below, Except.toOption]
      | ok other => simp [Below, Except.toOption, eq_comm]

theorem Below.refl (a : Evaluation) : a.Below a :=
  Or.inr rfl

theorem Below.antisymm {a b : Evaluation} (ab : a.Below b) (ba : b.Below a) :
    a.toOption = b.toOption := by
  rcases ab with unknown | same
  · rcases ba with otherUnknown | same
    · exact unknown.trans otherUnknown.symm
    · exact same.symm
  · exact same

/-- A bind is monotone in the outcome that it waits for and in what it goes on with. -/
theorem Below.bind {a b : Evaluation} {f g : Primitive → Evaluation} (first : a.Below b)
    (next : ∀ value, (f value).Below (g value)) : Below (a >>= f) (b >>= g) := by
  cases a with
  | error obstacle => exact Or.inl rfl
  | ok value =>
      obtain rfl : b = .ok value := below_iff.mp first value rfl
      exact next value

end Evaluation

open Evaluation (Below)

/-! ## One level -/

/-- What two parts of one shape hold is ordered outcome by outcome, and the rest is the same. -/
def Shape.Below : (shape : Shape) → shape.Holds Evaluation → shape.Holds Evaluation → Prop
  | .node, a, b => Evaluation.Below a b
  | .optNode, a, b => Option.Rel Evaluation.Below a b
  | .nodes, as, bs => List.Forall₂ Evaluation.Below as bs
  | .holes, as, bs => List.Forall₂ (Option.Rel Evaluation.Below) as bs
  | _, a, b => a = b

/-- Two rows are ordered part by part. -/
def rowBelow : {slots : List Slot} → Row Evaluation slots → Row Evaluation slots → Prop
  | [], _, _ => True
  | slot :: _, (head, tail), (other, others) => slot.shape.Below head other ∧ rowBelow tail others

theorem below_optional_refl (a : Option Evaluation) : Option.Rel Below a a := by
  cases a with
  | none => exact .none
  | some a => exact .some (.refl a)

theorem Shape.below_refl (shape : Shape) (held : shape.Holds Evaluation) :
    shape.Below held held := by
  cases shape with
  | node => exact Evaluation.Below.refl held
  | optNode => exact below_optional_refl held
  | nodes => exact List.forall₂_same.mpr fun a _ => .refl a
  | holes => exact List.forall₂_same.mpr fun a _ => below_optional_refl a
  | _ => rfl

theorem rowBelow_refl {slots : List Slot} (row : Row Evaluation slots) : rowBelow row row := by
  induction slots with
  | nil => trivial
  | cons slot slots induction => exact ⟨slot.shape.below_refl row.1, induction row.2⟩

namespace Static

/-- Chunks are the same and substitutions are ordered; the substitutions used up to the first that
is unknown are the same too. -/
theorem template_mono {chunks : List Chunk} {as bs : List Evaluation} {start : String}
    (below : List.Forall₂ Below as bs) :
    (template start chunks as).Below (template start chunks bs) := by
  induction chunks generalizing as bs start with
  | nil => exact .refl _
  | cons chunk chunks induction =>
      cases cooks : chunk.text.cooked with
      | none =>
          have unknown : ∀ rest, template start (chunk :: chunks) rest = .error .chunk := by
            intro rest
            simp [template, cooks]
          rw [unknown, unknown]
          exact .refl _
      | some text =>
          cases below with
          | nil =>
              simp only [template, cooks]
              exact .refl _
          | cons first others =>
              simp only [template, cooks]
              exact first.bind fun value => induction others

theorem unary_mono (operator : UnaryOperator) {a b : Evaluation} (below : a.Below b) :
    (unary operator a).Below (unary operator b) := by
  unfold unary
  split
  · exact .refl _
  · exact below.bind fun value => .refl _

theorem binary_mono (operator : BinaryOperator) {a b c d : Evaluation} (left : a.Below b)
    (right : c.Below d) : (binary operator a c).Below (binary operator b d) :=
  left.bind fun _ => right.bind fun _ => .refl _

/-- The right operand counts only where the left one does not decide, which both outcomes of the
left operand agree about. -/
theorem logical_mono (operator : LogicalOperator) {a b c d : Evaluation} (left : a.Below b)
    (right : c.Below d) : (logical operator a c).Below (logical operator b d) := by
  refine left.bind fun value => ?_
  split
  · exact .refl _
  · exact right

theorem conditional_mono {a b c d e f : Evaluation} (test : a.Below b) (consequent : c.Below d)
    (alternate : e.Below f) : (conditional a c e).Below (conditional b d f) := by
  refine test.bind fun value => ?_
  split
  · exact consequent
  · exact alternate

/-- The outcome of a node is monotone in the outcomes of its children. A kind without a rule is
unknown with any children. -/
theorem step_mono {kind : Kind} {row other : Row Evaluation kind.layout}
    (below : rowBelow row other) : (step kind row).Below (step kind other) := by
  cases kind with
  | literal =>
      obtain ⟨value, raw, regex, bigint, ⟨⟩⟩ := row
      obtain ⟨rfl, -, rfl, rfl, -⟩ := below
      exact .refl _
  | identifier =>
      obtain ⟨name, ⟨⟩⟩ := row
      obtain ⟨rfl, -⟩ := below
      exact .refl _
  | templateLiteral =>
      obtain ⟨chunks, expressions, ⟨⟩⟩ := row
      obtain ⟨rfl, substitutions, -⟩ := below
      exact template_mono substitutions
  | unaryExpression =>
      obtain ⟨operator, argument, ⟨⟩⟩ := row
      obtain ⟨rfl, operand, -⟩ := below
      exact unary_mono _ operand
  | binaryExpression =>
      obtain ⟨operator, left, right, ⟨⟩⟩ := row
      obtain ⟨rfl, leftBelow, rightBelow, -⟩ := below
      exact binary_mono _ leftBelow rightBelow
  | logicalExpression =>
      obtain ⟨operator, left, right, ⟨⟩⟩ := row
      obtain ⟨rfl, leftBelow, rightBelow, -⟩ := below
      exact logical_mono _ leftBelow rightBelow
  | conditionalExpression =>
      obtain ⟨test, consequent, alternate, -⟩ := below
      exact conditional_mono test consequent alternate
  | parenthesizedExpression => exact below.1
  | _ => exact Or.inl rfl

end Static

/-! ## Frames and contexts -/

theorem Node.foldHoles_algebra (nodes : List (Option Node)) :
    foldHoles Static.algebra nodes = nodes.map (Option.map evaluate) := by
  induction nodes with
  | nil => rfl
  | cons node nodes induction => cases node <;> simp [foldHoles, evaluate, induction]

/-- Two lists that differ in one element are ordered when these two are. -/
theorem forall₂_append_cons {α : Type} {related : α → α → Prop} (refl : ∀ a, related a a)
    (before after : List α) {a b : α} (here : related a b) :
    List.Forall₂ related (before ++ a :: after) (before ++ b :: after) := by
  have same : ∀ values : List α, List.Forall₂ related values values :=
    fun values => List.forall₂_same.mpr fun a _ => refl a
  exact List.rel_append (same before) (.cons here (same after))

section Filling

variable {a b : Node} (below : a.evaluate.Below b.evaluate)
include below

theorem OpenPart.fold_plug_mono {shape : Shape} (gap : OpenPart shape) :
    shape.Below ((gap.plug a).fold Static.algebra) ((gap.plug b).fold Static.algebra) := by
  cases gap with
  | node => exact below
  | optNode => exact Option.Rel.some below
  | nodes before after =>
      change List.Forall₂ Evaluation.Below (Node.foldList Static.algebra (before ++ a :: after))
        (Node.foldList Static.algebra (before ++ b :: after))
      simp only [Node.foldList_algebra, List.map_append, List.map_cons]
      exact forall₂_append_cons Evaluation.Below.refl _ _ below
  | holes before after =>
      change List.Forall₂ (Option.Rel Evaluation.Below)
        (Node.foldHoles Static.algebra (before ++ some a :: after))
        (Node.foldHoles Static.algebra (before ++ some b :: after))
      simp only [Node.foldHoles_algebra, List.map_append, List.map_cons]
      exact forall₂_append_cons below_optional_refl _ _ (Option.Rel.some below)

theorem OpenParts.fold_plug_mono {slots : List Slot} (gap : OpenParts slots) :
    rowBelow ((gap.plug a).fold Static.algebra) ((gap.plug b).fold Static.algebra) := by
  induction gap with
  | here head tail => exact ⟨head.fold_plug_mono below, rowBelow_refl _⟩
  | @later field shape slots head tail induction => exact ⟨shape.below_refl _, induction⟩

theorem Frame.evaluate_plug_mono (frame : Frame) :
    (frame.plug a).evaluate.Below (frame.plug b).evaluate :=
  Static.step_mono (frame.parts.fold_plug_mono below)

theorem Context.evaluate_plug_mono (context : Context) :
    (context.plug a).evaluate.Below (context.plug b).evaluate := by
  induction context with
  | nil => exact below
  | cons frame frames induction => exact frame.evaluate_plug_mono induction

end Filling

/-- The expression that writes a value: a literal, or the name of `undefined`. -/
def Primitive.toNode : Primitive → Node
  | .undefined => .make .identifier ("undefined", ())
  | .null => .make .literal (.null, none, none, none, ())
  | .bool value => .make .literal (.bool value, none, none, none, ())
  | .number value => .make .literal (.number value, none, none, none, ())
  | .text value => .make .literal (.text value, none, none, none, ())

@[simp] theorem Primitive.evaluate_toNode (value : Primitive) :
    value.toNode.evaluate = .ok value := by
  cases value <;> rfl

namespace Context

/-- The outcome of a tree is monotone in the outcome of the node in its gap. So the value of a node
may be written in its place without a change, and a node whose value is unknown may be replaced by
any other one where the value of the tree is known. -/
theorem evaluate_plug (context : Context) (a b : Node) :
    (a.evaluate.Below b.evaluate →
      (context.plug a).evaluate.Below (context.plug b).evaluate) ∧
    (∀ value, a.evaluate = .ok value →
      (context.plug value.toNode).evaluate.toOption = (context.plug a).evaluate.toOption) ∧
    (∀ value, a.evaluate.toOption = none → (context.plug a).evaluate = .ok value →
      (context.plug b).evaluate = .ok value) := by
  refine ⟨fun below => context.evaluate_plug_mono below, fun value known => ?_,
    fun value unknown known => ?_⟩
  · have same : value.toNode.evaluate = a.evaluate := value.evaluate_toNode.trans known.symm
    have below : value.toNode.evaluate.Below a.evaluate := Or.inr (congrArg _ same)
    have above : a.evaluate.Below value.toNode.evaluate := Or.inr (congrArg _ same.symm)
    exact (context.evaluate_plug_mono below).antisymm (context.evaluate_plug_mono above)
  · have below : a.evaluate.Below b.evaluate := Or.inl unknown
    exact Evaluation.below_iff.mp (context.evaluate_plug_mono below) value known

/-- In `(□ || f)` an unknown node gives an unknown value and `!null` gives `true`, as the literal
`true` does; in `!null || □` the node does not matter. -/
theorem evaluate_plug_disjunction :
    let negation := Node.make .unaryExpression (.not, Primitive.null.toNode, ())
    let unknown := Node.make .identifier ("f", ())
    let left : Context := [⟨.parenthesizedExpression, .here .node .nil⟩,
      ⟨.logicalExpression, .later (.choice .or) (.here .node (.cons (.node unknown) .nil))⟩]
    let right : Context :=
      [⟨.logicalExpression, .later (.choice .or) (.later (.node negation) (.here .node .nil))⟩]
    (left.plug unknown).evaluate.Below (left.plug negation).evaluate ∧
      (left.plug (Primitive.bool true).toNode).evaluate.toOption = some (.bool true) ∧
        ∀ other, (right.plug other).evaluate = .ok (.bool true) := by
  intro negation unknown left right
  refine ⟨(left.evaluate_plug unknown negation).1 (Or.inl rfl), ?_, fun other => ?_⟩
  · have same := (left.evaluate_plug negation unknown).2.1 (.bool true) rfl
    exact same.trans rfl
  · exact (right.evaluate_plug unknown other).2.2 (.bool true) rfl rfl

end Context

end TreeQuery
