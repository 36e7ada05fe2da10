import TreeQuery.Diagnostic
import TreeQuery.Node.Basic
import TreeQuery.Static.Operator

/-!
# Static evaluation

The value of an expression that depends on nothing but literals and operators. It is a fold: the
outcome of a node comes from its kind and the outcomes of its children. An outcome is a value or the
first obstacle, in the order of evaluation, that keeps the value unknown.
-/

namespace TreeQuery

/-- What keeps the value of an expression unknown. -/
inductive Obstacle where
  /-- A node of this kind, or an unsupported one, has no static value. -/
  | node (kind : Option Kind)
  /-- A literal that is no primitive value. -/
  | literal
  /-- A template chunk with an invalid escape. -/
  | chunk
  /-- An operator that asks about objects. -/
  | operator
deriving DecidableEq, Repr

/-- What is reported about an obstacle: only nodes are. -/
def Obstacle.diagnostics : Obstacle → List Diagnostic
  | .node kind => [.notStatic kind]
  | _ => []

/-- A value, or what keeps it unknown. -/
abbrev Evaluation : Type :=
  Except Obstacle Primitive

/-- What is reported about an evaluation. -/
def Evaluation.diagnostics : Evaluation → List Diagnostic
  | .ok _ => []
  | .error obstacle => obstacle.diagnostics

namespace Static

/-- The primitive value of a literal that is neither a regular expression nor a large integer. -/
def literalValue? : LiteralValue → Option Regex → Option String → Option Primitive
  | .null, none, none => some .null
  | .bool value, none, none => some (.bool value)
  | .number value, none, none => some (.number value)
  | .text value, none, none => some (.text value)
  | _, _, _ => none

/-- The outcome of a literal. -/
def literal (value : LiteralValue) (regex : Option Regex) (bigint : Option String) : Evaluation :=
  match literalValue? value regex bigint with
  | some value => .ok value
  | none => .error .literal

/-- The text of a template whose first chunks read `start`. Chunks and substitutions alternate;
missing substitutions are passed over, and surplus ones are not looked at. -/
def template (start : String) : List Chunk → List Evaluation → Evaluation
  | [], _ => .ok (.text start)
  | chunk :: chunks, expressions =>
      match chunk.text.cooked with
      | none => .error .chunk
      | some cooked =>
          match expressions with
          | [] => template (start ++ cooked) chunks []
          | expression :: expressions => do
              let value ← expression
              template (start ++ cooked ++ value.toText) chunks expressions

/-- The outcome of a unary operation; the operand of `void` does not matter. -/
def unary (operator : UnaryOperator) (operand : Evaluation) : Evaluation :=
  if operator = .void then
    .ok .undefined
  else do
    match operator.apply? (← operand) with
    | some value => .ok value
    | none => .error .operator

/-- The outcome of a binary operation. -/
def binary (operator : BinaryOperator) (left right : Evaluation) : Evaluation := do
  let a ← left
  let b ← right
  match operator.apply? a b with
  | some value => .ok value
  | none => .error .operator

/-- The outcome of a logical operation, whose right operand may not matter. -/
def logical (operator : LogicalOperator) (left right : Evaluation) : Evaluation := do
  let a ← left
  if operator.decidedBy a then .ok a else right

/-- The outcome of a choice by a test. -/
def conditional (test consequent alternate : Evaluation) : Evaluation := do
  if (← test).toBool then consequent else alternate

/-- The outcome of a node from the outcomes of its children. -/
def step : (kind : Kind) → Row Evaluation kind.layout → Evaluation
  | .literal, (value, _, regex, bigint, _) => literal value regex bigint
  | .identifier, (name, _) =>
      if name = "undefined" then .ok .undefined else .error (.node (some .identifier))
  | .templateLiteral, (chunks, expressions, _) => template "" chunks expressions
  | .unaryExpression, (operator, argument, _) => unary operator argument
  | .binaryExpression, (operator, left, right, _) => binary operator left right
  | .logicalExpression, (operator, left, right, _) => logical operator left right
  | .conditionalExpression, (test, consequent, alternate, _) =>
      conditional test consequent alternate
  | .parenthesizedExpression, (expression, _) => expression
  | kind, _ => .error (.node (some kind))

/-- How outcomes are computed. -/
def algebra : Algebra Evaluation where
  node := step
  unsupported := .error (.node none)

end Static

/-- The static value of a node, or what keeps it unknown. -/
def Node.evaluate (node : Node) : Evaluation :=
  node.fold Static.algebra

end TreeQuery
