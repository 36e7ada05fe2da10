import Mathlib.Data.List.Forall2
import TreeQuery.Proofs.Static.Reports

/-!
# Templates as concatenations

A template reads like the sum of its chunks and substitutions, taken in turn from left to right,
with every chunk as a text literal. Template and sum have the same outcome and report the same,
whether the substitutions are known or not.
-/

namespace TreeQuery

namespace Node

/-- The sum of two nodes. -/
def plus (left right : Node) : Node :=
  make .binaryExpression (.add, left, right, ())

/-- Sums from left to right: to a first node, a substitution and a literal are added in turn. -/
def concatenation (first : Node) (others : List (Node × Node)) : Node :=
  others.foldl (fun sum (substitution, literal) => (sum.plus substitution).plus literal) first

end Node

/-- A literal holds the text of a chunk, whatever else is known of how it was written. -/
def Chunk.IsHeldBy (chunk : Chunk) (literal : Node) : Prop :=
  ∃ text raw, chunk.text.cooked = some text ∧
    literal = .make .literal (.text text, raw, none, none, ())

theorem Chunk.IsHeldBy.evaluate {chunk : Chunk} {literal : Node} (held : chunk.IsHeldBy literal) :
    ∃ text, chunk.text.cooked = some text ∧ literal.evaluate = .ok (.text text) := by
  obtain ⟨text, raw, cooks, rfl⟩ := held
  exact ⟨text, cooks, rfl⟩

namespace Node

theorem evaluate_plus (left right : Node) :
    (left.plus right).evaluate = Static.binary .add left.evaluate right.evaluate :=
  rfl

theorem evaluate_plus_of_text {left right : Node} {start : String} {value : Primitive}
    (text : left.evaluate = .ok (.text start)) (known : right.evaluate = .ok value) :
    (left.plus right).evaluate = .ok (.text (start ++ value.toText)) := by
  rw [evaluate_plus, text, known]
  rfl

theorem evaluate_plus_of_left {left right : Node} {obstacle : Obstacle}
    (unknown : left.evaluate = .error obstacle) :
    (left.plus right).evaluate = .error obstacle := by
  rw [evaluate_plus, unknown]
  rfl

theorem evaluate_plus_of_right {left right : Node} {value : Primitive} {obstacle : Obstacle}
    (known : left.evaluate = .ok value) (unknown : right.evaluate = .error obstacle) :
    (left.plus right).evaluate = .error obstacle := by
  rw [evaluate_plus, known, unknown]
  rfl

/-- What keeps the first node of a sum unknown keeps the sum unknown. -/
theorem evaluate_concatenation_of_error {first : Node} {obstacle : Obstacle}
    (unknown : first.evaluate = .error obstacle) (others : List (Node × Node)) :
    (concatenation first others).evaluate = .error obstacle := by
  induction others generalizing first with
  | nil => exact unknown
  | cons other others induction =>
      exact induction (evaluate_plus_of_left (evaluate_plus_of_left unknown))

end Node

/-- A template that goes on behind the text `start` has the outcome of a sum that goes on behind a
node with the text `start` and the text of the next chunk. -/
theorem Static.template_eq_concatenation {chunk : Chunk} {chunks : List Chunk}
    {literals expressions : List Node} {sum : Node} {start text : String}
    (held : List.Forall₂ Chunk.IsHeldBy chunks literals)
    (fits : expressions.length = literals.length) (cooks : chunk.text.cooked = some text)
    (sumText : sum.evaluate = .ok (.text (start ++ text))) :
    template start (chunk :: chunks) (expressions.map Node.evaluate) =
      (Node.concatenation sum (expressions.zip literals)).evaluate := by
  induction expressions generalizing chunk chunks literals sum start text with
  | nil =>
      obtain rfl := List.eq_nil_of_length_eq_zero fits.symm
      obtain rfl := List.forall₂_nil_right_iff.mp held
      simp only [template, cooks, List.map_nil]
      exact sumText.symm
  | cons expression expressions induction =>
      cases held with
      | nil => cases fits
      | @cons next literal chunks literals here others =>
          obtain ⟨nextText, nextCooks, literalText⟩ := here.evaluate
          simp only [template, cooks, List.map_cons]
          cases outcome : expression.evaluate with
          | error obstacle =>
              have unknown := Node.evaluate_plus_of_right sumText outcome
              exact (Node.evaluate_concatenation_of_error
                (Node.evaluate_plus_of_left unknown) _).symm
          | ok value =>
              have goesOn := Node.evaluate_plus_of_text sumText outcome
              exact induction others (Nat.succ.inj fits) nextCooks
                (Node.evaluate_plus_of_text goesOn literalText)

namespace Node

/-- A template with one chunk more than substitutions, all chunks with a text, has the value of the
sum of its chunks and substitutions, or the same obstacle, and both evaluations report the same on
their way. -/
theorem evaluate_template_eq_concatenation {chunks : List Chunk} {expressions : List Node}
    {first : Node} {literals : List Node}
    (held : List.Forall₂ Chunk.IsHeldBy chunks (first :: literals))
    (fits : expressions.length = literals.length) :
    (make .templateLiteral (chunks, expressions, ())).evaluate =
        (concatenation first (expressions.zip literals)).evaluate ∧
      (make .templateLiteral (chunks, expressions, ())).course.reports =
        (concatenation first (expressions.zip literals)).course.reports := by
  have same : (make .templateLiteral (chunks, expressions, ())).evaluate =
      (concatenation first (expressions.zip literals)).evaluate := by
    rw [evaluate_template]
    cases held with
    | cons here others =>
        obtain ⟨text, cooks, literalText⟩ := here.evaluate
        refine Static.template_eq_concatenation others fits cooks ?_
        rw [String.empty_append, literalText]
  refine ⟨same, ?_⟩
  rw [reports_eq, reports_eq, same]

/-- In a template of three chunks with the substitutions `null` and `f`, the second one stops the
evaluation and is reported, as it is in `"a" + null + "b" + f + ""`. -/
theorem evaluate_template_eq_concatenation_stopped :
    let chunks : List Chunk :=
      [⟨⟨"a", some "a"⟩, false⟩, ⟨⟨"b", some "b"⟩, false⟩, ⟨⟨"", some ""⟩, true⟩]
    let literal := fun text raw => make .literal (.text text, some raw, none, none, ())
    let expressions := [Primitive.null.toNode, make .identifier ("f", ())]
    let literals := [literal "b" "'b'", literal "" "''"]
    let template := make .templateLiteral (chunks, expressions, ())
    let sum := concatenation (literal "a" "'a'") (expressions.zip literals)
    List.Forall₂ Chunk.IsHeldBy chunks (literal "a" "'a'" :: literals) ∧
      expressions.length = literals.length ∧ template.evaluate = sum.evaluate ∧
        template.course.reports = sum.course.reports ∧
          sum.course.reports = [.notStatic (some .identifier)] := by
  intro chunks literal expressions literals template sum
  have held : List.Forall₂ Chunk.IsHeldBy chunks (literal "a" "'a'" :: literals) :=
    .cons ⟨_, _, rfl, rfl⟩ (.cons ⟨_, _, rfl, rfl⟩ (.cons ⟨_, _, rfl, rfl⟩ .nil))
  have fits : expressions.length = literals.length := rfl
  obtain ⟨same, sameReports⟩ := evaluate_template_eq_concatenation held fits
  exact ⟨held, fits, same, sameReports, rfl⟩

end Node

end TreeQuery
