import TreeQuery.Diagnostic
import TreeQuery.Scope.Binding

/-!
# Uses of an identifier

A search walks the parts of a node that can hold references and notes what it sees, in order: uses
of the name, and unsupported nodes. A table says for each part whether it is searched, under which
condition, and in which role the nodes there stand. The answer is whether a use is seen, and the
reports are the unsupported nodes seen before the first use.
-/

namespace TreeQuery

/-- The role in which a node stands. -/
inductive Use where
  /-- As code, where an identifier is a use of its name. -/
  | reference
  /-- As a target that binds, where a plain identifier is no use of its name. -/
  | target
  /-- As a member of an object pattern, where the value of a property is a target. -/
  | member
deriving DecidableEq, Repr

/-- When a part is searched. -/
inductive Condition where
  /-- In every node. -/
  | always
  /-- In a node whose key or property is computed. -/
  | computed
  /-- In an export without a source. -/
  | unsourced
  /-- In a node that does not hide the name. -/
  | visible
deriving DecidableEq, Repr

/-- How a search treats a part. -/
inductive Treatment where
  /-- The part never holds references. -/
  | skipped
  /-- The part is searched when the condition holds, and its nodes stand in the given role. -/
  | searched (use : Use) (condition : Condition)
deriving DecidableEq, Repr

namespace Kind

/-- How a search treats the parts of a node that stands in the given role. -/
def treatment (use : Use) : Kind → Field → Treatment
  -- Keys and member names are code only when computed.
  | .property, .key | .methodDefinition, .key => .searched .reference .computed
  | .propertyDefinition, .key | .memberExpression, .property => .searched .reference .computed
  | .property, .value => .searched (if use = .member then .target else .reference) .always
  -- Names of their own kind: labels, meta properties, names of functions and classes.
  | .labeledStatement, .label | .breakStatement, .label | .continueStatement, .label => .skipped
  | .metaProperty, _ => .skipped
  | .functionDeclaration, .id | .functionExpression, .id | .arrowFunctionExpression, .id => .skipped
  | .classDeclaration, .id | .classExpression, .id => .skipped
  -- Binding targets.
  | .functionDeclaration, .params | .functionExpression, .params => .searched .target .always
  | .arrowFunctionExpression, .params | .catchClause, .param => .searched .target .always
  | .variableDeclarator, .id | .arrayPattern, .elements => .searched .target .always
  | .assignmentPattern, .left | .restElement, .argument => .searched .target .always
  | .objectPattern, .properties => .searched .member .always
  -- Scopes, whose insides a binding of the name hides.
  | .program, .body | .blockStatement, .body | .staticBlock, .body => .searched .reference .visible
  | .functionDeclaration, .body | .functionExpression, .body => .searched .reference .visible
  | .arrowFunctionExpression, .body | .catchClause, .body => .searched .reference .visible
  | .classDeclaration, _ | .classExpression, _ => .searched .reference .visible
  | .forStatement, _ | .forInStatement, _ | .forOfStatement, _ => .searched .reference .visible
  -- Imports and exports.
  | .importDeclaration, _ | .importSpecifier, _ => .skipped
  | .importDefaultSpecifier, _ | .importNamespaceSpecifier, _ => .skipped
  | .exportNamedDeclaration, .specifiers => .searched .reference .unsourced
  | .exportNamedDeclaration, .source | .exportSpecifier, .exported => .skipped
  | .exportAllDeclaration, _ => .skipped
  -- Markup names that are not variables.
  | .jsxNamespacedName, _ | .jsxMemberExpression, .property | .jsxAttribute, .name => .skipped
  | .jsxElement, .closingElement | .jsxClosingElement, _ => .skipped
  | _, _ => .searched .reference .always

/-- Whether a part is searched after the parts that follow it: a computed property comes before the
object that it is taken from. -/
def isDeferred : Kind → Field → Bool
  | .memberExpression, .object => true
  | _, _ => false

/-- Whether a node in the given role uses the name that it holds. -/
def isUse (use : Use) : Kind → Bool
  | .identifier => use != .target
  | .jsxIdentifier => true
  | _ => false

end Kind

/-- What the conditions of a node depend on. -/
structure Circumstances where
  /-- Its key or property is computed. -/
  computed : Bool
  /-- It has a source. -/
  sourced : Bool
  /-- It hides the name. -/
  hidden : Bool
deriving DecidableEq, Repr

/-- Whether a condition holds. -/
def Condition.holds (circumstances : Circumstances) : Condition → Bool
  | .always => true
  | .computed => circumstances.computed
  | .unsourced => !circumstances.sourced
  | .visible => !circumstances.hidden

/-- The role of the nodes in a part that is searched. -/
def Treatment.use? (circumstances : Circumstances) : Treatment → Option Use
  | .skipped => none
  | .searched use condition => if condition.holds circumstances then some use else none

/-- What a search comes upon. -/
inductive Sighting where
  /-- A use of the name. -/
  | use
  /-- An unsupported node. -/
  | unsupported
deriving DecidableEq, Repr

/-- The circumstances of a node in the search for a name. -/
def Node.circumstances (name : String) : Node → Circumstances
  | .mk kind parts =>
      { computed := parts.isSet .computed
        sourced := parts.isPresent .source
        hidden := (Node.mk kind parts).hides name }
  | .unsupported => ⟨false, false, false⟩

/-- The uses that a node with a name of its own is. -/
def Kind.ownSightings (kind : Kind) (use : Use) (held : Option String) (name : String) :
    List Sighting :=
  if kind.isUse use ∧ held = some name then [.use] else []

mutual

/-- What the search for a name comes upon in a node that stands in the given role. -/
def Node.sightings (name : String) (use : Use) : Node → List Sighting
  | .mk kind parts =>
      let circumstances := (Node.mk kind parts).circumstances name
      kind.ownSightings use (parts.text? .name) name ++
        parts.sightings name (fun field => (kind.treatment use field).use? circumstances)
          kind.isDeferred
  | .unsupported => [.unsupported]

/-- What the search comes upon in the parts for which a table gives a role. -/
def Parts.sightings (name : String) (table : Field → Option Use) (deferred : Field → Bool)
    {slots : List Slot} : Parts slots → List Sighting
  | .nil => []
  | @Parts.cons field _ _ head tail =>
      let first := match table field with
        | some use => head.sightings name use
        | none => []
      let others := tail.sightings name table deferred
      if deferred field then others ++ first else first ++ others

/-- What the search comes upon in a part. -/
def Part.sightings (name : String) (use : Use) {shape : Shape} : Part shape → List Sighting
  | .node value => value.sightings name use
  | .optNode (some value) => value.sightings name use
  | .nodes values => Node.sightingsOfList name use values
  | .holes values => Node.sightingsOfHoles name use values
  | _ => []

/-- What the search comes upon in a list of nodes. -/
def Node.sightingsOfList (name : String) (use : Use) : List Node → List Sighting
  | [] => []
  | value :: values => value.sightings name use ++ Node.sightingsOfList name use values

/-- What the search comes upon in a list of nodes with holes. -/
def Node.sightingsOfHoles (name : String) (use : Use) : List (Option Node) → List Sighting
  | [] => []
  | none :: values => Node.sightingsOfHoles name use values
  | some value :: values => value.sightings name use ++ Node.sightingsOfHoles name use values

end

/-- The answer of a search and its reports. -/
structure Search where
  /-- Whether the name is used. -/
  found : Bool
  /-- What was reported on the way. -/
  diagnostics : List Diagnostic
deriving DecidableEq, Repr

/-- A search ends at the first use; each unsupported node before it is reported. -/
def Search.ofSightings (name : String) (sightings : List Sighting) : Search where
  found := sightings.contains .use
  diagnostics := (sightings.takeWhile (· != .use)).map fun _ => .unsupportedNode name

/-- Searches a node for uses of a name. -/
def Node.search (name : String) (node : Node) : Search :=
  .ofSightings name (node.sightings name .reference)

/-- Searches several nodes in turn for uses of a name. -/
def searchAll (name : String) (nodes : List Node) : Search :=
  .ofSightings name (Node.sightingsOfList name .reference nodes)

/-- Whether a node uses a name that it does not bind. -/
def Node.uses (name : String) (node : Node) : Bool :=
  (node.search name).found

end TreeQuery
