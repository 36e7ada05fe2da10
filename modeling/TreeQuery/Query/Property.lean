import TreeQuery.Static.Evaluate

/-!
# Member accesses

The literal name of an accessed property: `bar` in `foo.bar` and in `foo['bar']`, `0` in `foo[0]`.
-/

namespace TreeQuery

/-- The parts of a member access. -/
structure MemberAccess where
  /-- What is accessed. -/
  object : Node
  /-- The property. -/
  property : Node
  /-- Whether the property is an expression in brackets. -/
  computed : Bool

/-- The parts of a node that is a member access. -/
def Node.memberAccess? : Node → Option MemberAccess
  | .mk .memberExpression parts =>
      let (object, property, computed, _) := parts.row
      some ⟨object, property, computed⟩
  | _ => none

/-- The literal name of the property; a computed property is not evaluated. -/
def MemberAccess.literalName? (access : MemberAccess) : Option Primitive :=
  match access.property.kind? with
  | some .identifier =>
      if access.computed then none else access.property.identifierName?.map .text
  | some .literal => access.property.evaluate.toOption
  | _ => none

/-- The literal name of the property that a member access names. -/
def Node.propertyName? (node : Node) : Option Primitive :=
  node.memberAccess?.bind MemberAccess.literalName?

/-- The name of the property as a text, with a computed property evaluated. `none` inside means that
the property is not computed and no identifier. -/
def MemberAccess.staticName (access : MemberAccess) : Except Obstacle (Option String) :=
  if access.computed then do
    return some (← access.property.evaluate).toText
  else
    return access.property.identifierName?

end TreeQuery
