import TreeQuery.Node.Basic

/-!
# Whether a node binds a name

Binding is read off the declarative parts of a node: parameters, declared names, targets of
patterns, and the direct statements of a block. Bodies of functions are never entered, so what an
inner function declares does not count for the statements beside it.
-/

namespace TreeQuery

mutual

/-- Whether a node binds a name for the nodes beside it. -/
def Node.introduces (name : String) : Node → Bool
  | .mk .identifier parts => parts.text? .name == some name
  | .mk .functionDeclaration parts => parts.introducesAt name .id || parts.introducesAt name .params
  -- The name of a function expression is seen only inside it.
  | .mk .functionExpression parts | .mk .arrowFunctionExpression parts =>
      parts.introducesAt name .params
  | .mk .classDeclaration parts => parts.introducesAt name .id
  | .mk .program parts => parts.introducesAt name .body
  | .mk .blockStatement parts | .mk .staticBlock parts => parts.introducesAt name .body
  | .mk .variableDeclaration parts => parts.introducesAt name .declarations
  | .mk .variableDeclarator parts => parts.introducesAt name .id
  | .mk .objectPattern parts => parts.introducesAt name .properties
  | .mk .arrayPattern parts => parts.introducesAt name .elements
  | .mk .property parts => parts.introducesAt name .value
  | .mk .restElement parts => parts.introducesAt name .argument
  | .mk .assignmentPattern parts => parts.introducesAt name .left
  -- The head of a loop may also be an expression, which only refers to the name.
  | .mk .forStatement parts =>
      parts.kindAt? .init == some .variableDeclaration && parts.introducesAt name .init
  | .mk .forInStatement parts | .mk .forOfStatement parts =>
      parts.kindAt? .left == some .variableDeclaration && parts.introducesAt name .left
  | .mk .catchClause parts => parts.introducesAt name .param
  | .mk .importDeclaration parts => parts.introducesLocalAt name .specifiers
  | _ => false

/-- Whether a member of an import binds a name. -/
def Node.introducesLocal (name : String) : Node → Bool
  | .mk .importSpecifier parts => parts.introducesAt name .localName
  | .mk .importDefaultSpecifier parts | .mk .importNamespaceSpecifier parts =>
      parts.introducesAt name .localName
  | _ => false

/-- Whether a node in the part with a name binds a name. -/
def Parts.introducesAt (name : String) (wanted : Field) {slots : List Slot} : Parts slots → Bool
  | .nil => false
  | @Parts.cons field _ _ head tail =>
      if field = wanted then head.introduces name else tail.introducesAt name wanted

/-- Whether a member of an import in the part with a name binds a name. -/
def Parts.introducesLocalAt (name : String) (wanted : Field) {slots : List Slot} :
    Parts slots → Bool
  | .nil => false
  | @Parts.cons field _ _ head tail =>
      if field = wanted then head.introducesLocal name else tail.introducesLocalAt name wanted

/-- Whether a node in a part binds a name. -/
def Part.introduces (name : String) {shape : Shape} : Part shape → Bool
  | .node value => value.introduces name
  | .optNode (some value) => value.introduces name
  | .nodes values => Node.anyIntroduces name values
  | .holes values => Node.anyPresentIntroduces name values
  | _ => false

/-- Whether a member of an import in a part binds a name. -/
def Part.introducesLocal (name : String) {shape : Shape} : Part shape → Bool
  | .nodes values => Node.anyIntroducesLocal name values
  | _ => false

/-- Whether one of several nodes binds a name. -/
def Node.anyIntroduces (name : String) : List Node → Bool
  | [] => false
  | value :: values => value.introduces name || Node.anyIntroduces name values

/-- Whether one of several nodes binds a name, holes aside. -/
def Node.anyPresentIntroduces (name : String) : List (Option Node) → Bool
  | [] => false
  | none :: values => Node.anyPresentIntroduces name values
  | some value :: values => value.introduces name || Node.anyPresentIntroduces name values

/-- Whether one of several members of an import binds a name. -/
def Node.anyIntroducesLocal (name : String) : List Node → Bool
  | [] => false
  | value :: values => value.introducesLocal name || Node.anyIntroducesLocal name values

end

/-- Whether a node hides a name from the nodes inside it. A class hides its own name, also where it
does not bind it for the nodes beside it. -/
def Node.hides (name : String) : Node → Bool
  | .mk .classDeclaration parts | .mk .classExpression parts => parts.introducesAt name .id
  -- No node is inside an identifier.
  | .mk .identifier _ => false
  | node => node.introduces name

end TreeQuery
