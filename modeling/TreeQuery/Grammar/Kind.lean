/-!
# Kinds of syntax nodes

The node types of an ESTree document, each with the tag that is read and the name that is shown. Two
tags of older documents name a kind of today. A tag may also be written as the index of its kind.
-/

namespace TreeQuery

/-- The type of a syntax node. -/
inductive Kind where
  | program | identifier | privateIdentifier | literal | thisExpression | super | arrayExpression
  | objectExpression | property | spreadElement | templateLiteral | taggedTemplateExpression
  | sequenceExpression | callExpression | newExpression | memberExpression | chainExpression
  | parenthesizedExpression | conditionalExpression | binaryExpression | logicalExpression
  | assignmentExpression | unaryExpression | updateExpression | yieldExpression | awaitExpression
  | importExpression | metaProperty | functionDeclaration | functionExpression
  | arrowFunctionExpression | classDeclaration | classExpression | classBody | methodDefinition
  | propertyDefinition | staticBlock | expressionStatement | blockStatement | emptyStatement
  | debuggerStatement | returnStatement | ifStatement | labeledStatement | breakStatement
  | continueStatement | withStatement | switchStatement | switchCase | throwStatement
  | tryStatement | catchClause | whileStatement | doWhileStatement | forStatement | forInStatement
  | forOfStatement | variableDeclaration | variableDeclarator | objectPattern | arrayPattern
  | assignmentPattern | restElement | importDeclaration | importSpecifier | importDefaultSpecifier
  | importNamespaceSpecifier | exportNamedDeclaration | exportSpecifier | exportDefaultDeclaration
  | exportAllDeclaration | jsxIdentifier | jsxNamespacedName | jsxMemberExpression | jsxElement
  | jsxFragment | jsxOpeningElement | jsxClosingElement | jsxAttribute | jsxSpreadAttribute
  | jsxExpressionContainer | jsxEmptyExpression | jsxSpreadChild | jsxText
deriving DecidableEq, Repr

namespace Kind

/-- Every kind, in the order of the indices that stand for tags. -/
def all : List Kind :=
  [.program, .identifier, .privateIdentifier, .literal, .thisExpression, .super, .arrayExpression,
   .objectExpression, .property, .spreadElement, .templateLiteral, .taggedTemplateExpression,
   .sequenceExpression, .callExpression, .newExpression, .memberExpression, .chainExpression,
   .parenthesizedExpression, .conditionalExpression, .binaryExpression, .logicalExpression,
   .assignmentExpression, .unaryExpression, .updateExpression, .yieldExpression, .awaitExpression,
   .importExpression, .metaProperty, .functionDeclaration, .functionExpression,
   .arrowFunctionExpression, .classDeclaration, .classExpression, .classBody, .methodDefinition,
   .propertyDefinition, .staticBlock, .expressionStatement, .blockStatement, .emptyStatement,
   .debuggerStatement, .returnStatement, .ifStatement, .labeledStatement, .breakStatement,
   .continueStatement, .withStatement, .switchStatement, .switchCase, .throwStatement,
   .tryStatement, .catchClause, .whileStatement, .doWhileStatement, .forStatement, .forInStatement,
   .forOfStatement, .variableDeclaration, .variableDeclarator, .objectPattern, .arrayPattern,
   .assignmentPattern, .restElement, .importDeclaration, .importSpecifier, .importDefaultSpecifier,
   .importNamespaceSpecifier, .exportNamedDeclaration, .exportSpecifier, .exportDefaultDeclaration,
   .exportAllDeclaration, .jsxIdentifier, .jsxNamespacedName, .jsxMemberExpression, .jsxElement,
   .jsxFragment, .jsxOpeningElement, .jsxClosingElement, .jsxAttribute, .jsxSpreadAttribute,
   .jsxExpressionContainer, .jsxEmptyExpression, .jsxSpreadChild, .jsxText]

/-- The tag of a kind. -/
def tag : Kind → String
  | .program => "Program"
  | .identifier => "Identifier"
  | .privateIdentifier => "PrivateIdentifier"
  | .literal => "Literal"
  | .thisExpression => "ThisExpression"
  | .super => "Super"
  | .arrayExpression => "ArrayExpression"
  | .objectExpression => "ObjectExpression"
  | .property => "Property"
  | .spreadElement => "SpreadElement"
  | .templateLiteral => "TemplateLiteral"
  | .taggedTemplateExpression => "TaggedTemplateExpression"
  | .sequenceExpression => "SequenceExpression"
  | .callExpression => "CallExpression"
  | .newExpression => "NewExpression"
  | .memberExpression => "MemberExpression"
  | .chainExpression => "ChainExpression"
  | .parenthesizedExpression => "ParenthesizedExpression"
  | .conditionalExpression => "ConditionalExpression"
  | .binaryExpression => "BinaryExpression"
  | .logicalExpression => "LogicalExpression"
  | .assignmentExpression => "AssignmentExpression"
  | .unaryExpression => "UnaryExpression"
  | .updateExpression => "UpdateExpression"
  | .yieldExpression => "YieldExpression"
  | .awaitExpression => "AwaitExpression"
  | .importExpression => "ImportExpression"
  | .metaProperty => "MetaProperty"
  | .functionDeclaration => "FunctionDeclaration"
  | .functionExpression => "FunctionExpression"
  | .arrowFunctionExpression => "ArrowFunctionExpression"
  | .classDeclaration => "ClassDeclaration"
  | .classExpression => "ClassExpression"
  | .classBody => "ClassBody"
  | .methodDefinition => "MethodDefinition"
  | .propertyDefinition => "PropertyDefinition"
  | .staticBlock => "StaticBlock"
  | .expressionStatement => "ExpressionStatement"
  | .blockStatement => "BlockStatement"
  | .emptyStatement => "EmptyStatement"
  | .debuggerStatement => "DebuggerStatement"
  | .returnStatement => "ReturnStatement"
  | .ifStatement => "IfStatement"
  | .labeledStatement => "LabeledStatement"
  | .breakStatement => "BreakStatement"
  | .continueStatement => "ContinueStatement"
  | .withStatement => "WithStatement"
  | .switchStatement => "SwitchStatement"
  | .switchCase => "SwitchCase"
  | .throwStatement => "ThrowStatement"
  | .tryStatement => "TryStatement"
  | .catchClause => "CatchClause"
  | .whileStatement => "WhileStatement"
  | .doWhileStatement => "DoWhileStatement"
  | .forStatement => "ForStatement"
  | .forInStatement => "ForInStatement"
  | .forOfStatement => "ForOfStatement"
  | .variableDeclaration => "VariableDeclaration"
  | .variableDeclarator => "VariableDeclarator"
  | .objectPattern => "ObjectPattern"
  | .arrayPattern => "ArrayPattern"
  | .assignmentPattern => "AssignmentPattern"
  | .restElement => "RestElement"
  | .importDeclaration => "ImportDeclaration"
  | .importSpecifier => "ImportSpecifier"
  | .importDefaultSpecifier => "ImportDefaultSpecifier"
  | .importNamespaceSpecifier => "ImportNamespaceSpecifier"
  | .exportNamedDeclaration => "ExportNamedDeclaration"
  | .exportSpecifier => "ExportSpecifier"
  | .exportDefaultDeclaration => "ExportDefaultDeclaration"
  | .exportAllDeclaration => "ExportAllDeclaration"
  | .jsxIdentifier => "JSXIdentifier"
  | .jsxNamespacedName => "JSXNamespacedName"
  | .jsxMemberExpression => "JSXMemberExpression"
  | .jsxElement => "JSXElement"
  | .jsxFragment => "JSXFragment"
  | .jsxOpeningElement => "JSXOpeningElement"
  | .jsxClosingElement => "JSXClosingElement"
  | .jsxAttribute => "JSXAttribute"
  | .jsxSpreadAttribute => "JSXSpreadAttribute"
  | .jsxExpressionContainer => "JSXExpressionContainer"
  | .jsxEmptyExpression => "JSXEmptyExpression"
  | .jsxSpreadChild => "JSXSpreadChild"
  | .jsxText => "JSXText"

/-- The name of a kind in reports. -/
def typeName : Kind → String
  | .program => "Program"
  | .identifier => "Identifier"
  | .privateIdentifier => "PrivateIdentifier"
  | .literal => "Literal"
  | .thisExpression => "ThisExpression"
  | .super => "Super"
  | .arrayExpression => "ArrayExpression"
  | .objectExpression => "ObjectExpression"
  | .property => "Property"
  | .spreadElement => "SpreadElement"
  | .templateLiteral => "TemplateLiteral"
  | .taggedTemplateExpression => "TaggedTemplateExpression"
  | .sequenceExpression => "SequenceExpression"
  | .callExpression => "CallExpression"
  | .newExpression => "NewExpression"
  | .memberExpression => "MemberExpression"
  | .chainExpression => "ChainExpression"
  | .parenthesizedExpression => "ParenthesizedExpression"
  | .conditionalExpression => "ConditionalExpression"
  | .binaryExpression => "BinaryExpression"
  | .logicalExpression => "LogicalExpression"
  | .assignmentExpression => "AssignmentExpression"
  | .unaryExpression => "UnaryExpression"
  | .updateExpression => "UpdateExpression"
  | .yieldExpression => "YieldExpression"
  | .awaitExpression => "AwaitExpression"
  | .importExpression => "ImportExpression"
  | .metaProperty => "MetaProperty"
  | .functionDeclaration => "FunctionDeclaration"
  | .functionExpression => "FunctionExpression"
  | .arrowFunctionExpression => "ArrowFunctionExpression"
  | .classDeclaration => "ClassDeclaration"
  | .classExpression => "ClassExpression"
  | .classBody => "ClassBody"
  | .methodDefinition => "MethodDefinition"
  | .propertyDefinition => "PropertyDefinition"
  | .staticBlock => "StaticBlock"
  | .expressionStatement => "ExpressionStatement"
  | .blockStatement => "BlockStatement"
  | .emptyStatement => "EmptyStatement"
  | .debuggerStatement => "DebuggerStatement"
  | .returnStatement => "ReturnStatement"
  | .ifStatement => "IfStatement"
  | .labeledStatement => "LabeledStatement"
  | .breakStatement => "BreakStatement"
  | .continueStatement => "ContinueStatement"
  | .withStatement => "WithStatement"
  | .switchStatement => "SwitchStatement"
  | .switchCase => "SwitchCase"
  | .throwStatement => "ThrowStatement"
  | .tryStatement => "TryStatement"
  | .catchClause => "CatchClause"
  | .whileStatement => "WhileStatement"
  | .doWhileStatement => "DoWhileStatement"
  | .forStatement => "ForStatement"
  | .forInStatement => "ForInStatement"
  | .forOfStatement => "ForOfStatement"
  | .variableDeclaration => "VariableDeclaration"
  | .variableDeclarator => "VariableDeclarator"
  | .objectPattern => "ObjectPattern"
  | .arrayPattern => "ArrayPattern"
  | .assignmentPattern => "AssignmentPattern"
  | .restElement => "RestElement"
  | .importDeclaration => "ImportDeclaration"
  | .importSpecifier => "ImportSpecifier"
  | .importDefaultSpecifier => "ImportDefaultSpecifier"
  | .importNamespaceSpecifier => "ImportNamespaceSpecifier"
  | .exportNamedDeclaration => "ExportNamedDeclaration"
  | .exportSpecifier => "ExportSpecifier"
  | .exportDefaultDeclaration => "ExportDefaultDeclaration"
  | .exportAllDeclaration => "ExportAllDeclaration"
  | .jsxIdentifier => "JSXIdentifier"
  | .jsxNamespacedName => "JSXNamespacedName"
  | .jsxMemberExpression => "JSXMemberExpression"
  | .jsxElement => "JSXElement"
  | .jsxFragment => "JSXFragment"
  | .jsxOpeningElement => "JSXOpeningElement"
  | .jsxClosingElement => "JSXClosingElement"
  | .jsxAttribute => "JSXAttribute"
  | .jsxSpreadAttribute => "JSXSpreadAttribute"
  | .jsxExpressionContainer => "JSXExpressionContainer"
  | .jsxEmptyExpression => "JSXEmptyExpression"
  | .jsxSpreadChild => "JSXSpreadChild"
  | .jsxText => "JSXText"

/-- The tags of older documents. -/
def legacyTags : List (String × Kind) :=
  [("ExperimentalSpreadProperty", .spreadElement), ("ExperimentalRestProperty", .restElement)]

/-- The kind that a tag names. -/
def ofTag? (tag : String) : Option Kind :=
  match all.find? fun kind => kind.tag == tag with
  | some kind => some kind
  | none => legacyTags.lookup tag

theorem mem_all (kind : Kind) : kind ∈ all := by
  cases kind <;> decide

@[simp] theorem ofTag?_tag (kind : Kind) : ofTag? kind.tag = some kind :=
  have found : ∀ kind ∈ all, ofTag? kind.tag = some kind := by decide +kernel
  found kind (mem_all kind)

/-- The kind at an index. -/
def ofIndex? (index : Nat) : Option Kind :=
  all[index]?

end Kind

end TreeQuery
