import TreeQuery.Grammar.Field
import TreeQuery.Grammar.Kind
import TreeQuery.Grammar.Word

/-!
# What nodes are made of

The layout of a kind lists its parts in order: the name of each and the shape of what it holds.
Loading, searching and comparing nodes all follow these lists.
-/

namespace TreeQuery

/-- What a part of a node may hold. -/
inductive Shape where
  /-- A node. -/
  | node
  /-- A node or nothing. -/
  | optNode
  /-- A list of nodes. -/
  | nodes
  /-- A list of nodes with holes. -/
  | holes
  /-- A truth value. -/
  | flag
  /-- A text. -/
  | text
  /-- A text or nothing. -/
  | optText
  /-- A text that is empty when it is not given. -/
  | textOrEmpty
  /-- A word of a vocabulary. -/
  | choice (vocabulary : Vocabulary)
  /-- The value of a literal. -/
  | literal
  /-- A regular expression or nothing. -/
  | regex
  /-- The two forms of a template chunk. -/
  | chunkText
  /-- A template chunk. -/
  | chunk
  /-- The chunks of a template. -/
  | chunks
deriving DecidableEq, Repr

/-- A named part with its shape. -/
structure Slot where
  /-- The name of the part. -/
  field : Field
  /-- What the part holds. -/
  shape : Shape
deriving DecidableEq, Repr

/-- A record: its name in messages, and its parts in order. -/
structure Schema where
  /-- The name in messages. -/
  name : String
  /-- The parts in order. -/
  slots : List Slot
deriving DecidableEq, Repr

namespace Kind

/-- The parts of a node, in order. -/
def layout : Kind → List Slot
  | .program => [⟨.body, .nodes⟩, ⟨.sourceType, .choice .sourceType⟩]
  | .identifier => [⟨.name, .text⟩]
  | .privateIdentifier => [⟨.name, .text⟩]
  | .literal => [⟨.value, .literal⟩, ⟨.raw, .optText⟩, ⟨.regex, .regex⟩, ⟨.bigint, .optText⟩]
  | .thisExpression | .super | .emptyStatement | .debuggerStatement | .jsxEmptyExpression => []
  | .arrayExpression => [⟨.elements, .holes⟩]
  | .objectExpression => [⟨.properties, .nodes⟩]
  | .property =>
      [⟨.key, .node⟩, ⟨.value, .node⟩, ⟨.computed, .flag⟩, ⟨.shorthand, .flag⟩, ⟨.method, .flag⟩,
       ⟨.kind, .choice .propertyKind⟩]
  | .spreadElement => [⟨.argument, .node⟩]
  | .templateLiteral => [⟨.quasis, .chunks⟩, ⟨.expressions, .nodes⟩]
  | .taggedTemplateExpression => [⟨.tag, .node⟩, ⟨.quasi, .node⟩]
  | .sequenceExpression => [⟨.expressions, .nodes⟩]
  | .callExpression | .newExpression => [⟨.callee, .node⟩, ⟨.arguments, .nodes⟩, ⟨.optional, .flag⟩]
  | .memberExpression =>
      [⟨.object, .node⟩, ⟨.property, .node⟩, ⟨.computed, .flag⟩, ⟨.optional, .flag⟩]
  | .chainExpression => [⟨.expression, .node⟩]
  | .parenthesizedExpression => [⟨.expression, .node⟩]
  | .conditionalExpression => [⟨.test, .node⟩, ⟨.consequent, .node⟩, ⟨.alternate, .node⟩]
  | .binaryExpression => [⟨.operator, .choice .binary⟩, ⟨.left, .node⟩, ⟨.right, .node⟩]
  | .logicalExpression => [⟨.operator, .choice .logical⟩, ⟨.left, .node⟩, ⟨.right, .node⟩]
  | .assignmentExpression => [⟨.operator, .choice .assignment⟩, ⟨.left, .node⟩, ⟨.right, .node⟩]
  | .unaryExpression => [⟨.operator, .choice .unary⟩, ⟨.argument, .node⟩]
  | .updateExpression => [⟨.operator, .choice .update⟩, ⟨.argument, .node⟩, ⟨.prefixed, .flag⟩]
  | .yieldExpression => [⟨.argument, .optNode⟩, ⟨.delegate, .flag⟩]
  | .awaitExpression => [⟨.argument, .node⟩]
  | .importExpression => [⟨.source, .node⟩]
  | .metaProperty => [⟨.metaName, .node⟩, ⟨.property, .node⟩]
  | .functionDeclaration | .functionExpression | .arrowFunctionExpression =>
      [⟨.id, .optNode⟩, ⟨.params, .nodes⟩, ⟨.body, .node⟩, ⟨.isAsync, .flag⟩, ⟨.generator, .flag⟩,
       ⟨.expression, .flag⟩]
  | .classDeclaration | .classExpression =>
      [⟨.id, .optNode⟩, ⟨.superClass, .optNode⟩, ⟨.body, .node⟩]
  | .classBody => [⟨.body, .nodes⟩]
  | .methodDefinition =>
      [⟨.key, .node⟩, ⟨.value, .node⟩, ⟨.computed, .flag⟩, ⟨.isStatic, .flag⟩,
       ⟨.kind, .choice .methodKind⟩]
  | .propertyDefinition =>
      [⟨.key, .node⟩, ⟨.value, .optNode⟩, ⟨.computed, .flag⟩, ⟨.isStatic, .flag⟩]
  | .staticBlock | .blockStatement => [⟨.body, .nodes⟩]
  | .expressionStatement => [⟨.expression, .node⟩, ⟨.directive, .optText⟩]
  | .returnStatement => [⟨.argument, .optNode⟩]
  | .ifStatement => [⟨.test, .node⟩, ⟨.consequent, .node⟩, ⟨.alternate, .optNode⟩]
  | .labeledStatement => [⟨.label, .node⟩, ⟨.body, .node⟩]
  | .breakStatement | .continueStatement => [⟨.label, .optNode⟩]
  | .withStatement => [⟨.object, .node⟩, ⟨.body, .node⟩]
  | .switchStatement => [⟨.discriminant, .node⟩, ⟨.cases, .nodes⟩]
  | .switchCase => [⟨.test, .optNode⟩, ⟨.consequent, .nodes⟩]
  | .throwStatement => [⟨.argument, .node⟩]
  | .tryStatement => [⟨.block, .node⟩, ⟨.handler, .optNode⟩, ⟨.finalizer, .optNode⟩]
  | .catchClause => [⟨.param, .optNode⟩, ⟨.body, .node⟩]
  | .whileStatement | .doWhileStatement => [⟨.test, .node⟩, ⟨.body, .node⟩]
  | .forStatement => [⟨.init, .optNode⟩, ⟨.test, .optNode⟩, ⟨.update, .optNode⟩, ⟨.body, .node⟩]
  | .forInStatement | .forOfStatement =>
      [⟨.left, .node⟩, ⟨.right, .node⟩, ⟨.body, .node⟩, ⟨.isAwait, .flag⟩]
  | .variableDeclaration => [⟨.declarations, .nodes⟩, ⟨.kind, .choice .declarationKind⟩]
  | .variableDeclarator => [⟨.id, .node⟩, ⟨.init, .optNode⟩]
  | .objectPattern => [⟨.properties, .nodes⟩]
  | .arrayPattern => [⟨.elements, .holes⟩]
  | .assignmentPattern => [⟨.left, .node⟩, ⟨.right, .node⟩]
  | .restElement => [⟨.argument, .node⟩]
  | .importDeclaration => [⟨.specifiers, .nodes⟩, ⟨.source, .node⟩]
  | .importSpecifier => [⟨.imported, .node⟩, ⟨.localName, .node⟩]
  | .importDefaultSpecifier | .importNamespaceSpecifier => [⟨.localName, .node⟩]
  | .exportNamedDeclaration =>
      [⟨.declaration, .optNode⟩, ⟨.specifiers, .nodes⟩, ⟨.source, .optNode⟩]
  | .exportSpecifier => [⟨.localName, .node⟩, ⟨.exported, .node⟩]
  | .exportDefaultDeclaration => [⟨.declaration, .node⟩]
  | .exportAllDeclaration => [⟨.source, .node⟩, ⟨.exported, .optNode⟩]
  | .jsxIdentifier => [⟨.name, .text⟩]
  | .jsxNamespacedName => [⟨.nameSpace, .node⟩, ⟨.name, .node⟩]
  | .jsxMemberExpression => [⟨.object, .node⟩, ⟨.property, .node⟩]
  | .jsxElement => [⟨.openingElement, .node⟩, ⟨.closingElement, .optNode⟩, ⟨.children, .nodes⟩]
  | .jsxFragment => [⟨.children, .nodes⟩]
  | .jsxOpeningElement => [⟨.name, .node⟩, ⟨.attributes, .nodes⟩, ⟨.selfClosing, .flag⟩]
  | .jsxClosingElement => [⟨.name, .node⟩]
  | .jsxAttribute => [⟨.name, .node⟩, ⟨.value, .optNode⟩]
  | .jsxSpreadAttribute => [⟨.argument, .node⟩]
  | .jsxExpressionContainer | .jsxSpreadChild => [⟨.expression, .node⟩]
  | .jsxText => [⟨.value, .text⟩, ⟨.raw, .optText⟩]

/-- The name of the record that holds the parts, in messages about its length. -/
def recordName : Kind → String
  | .arrayExpression => "ArrExpr"
  | .objectExpression => "ObjExpr"
  | .taggedTemplateExpression => "TaggedTemplateExpr"
  | .sequenceExpression => "SeqExpr"
  | .callExpression | .newExpression => "CallExpr"
  | .memberExpression => "MemberExpr"
  | .chainExpression => "ChainExpr"
  | .parenthesizedExpression => "ParenExpr"
  | .conditionalExpression => "CondExpr"
  | .binaryExpression => "BinaryExpr"
  | .logicalExpression => "LogicalExpr"
  | .assignmentExpression => "AssignExpr"
  | .unaryExpression => "UnaryExpr"
  | .updateExpression => "UpdateExpr"
  | .yieldExpression => "YieldExpr"
  | .awaitExpression => "AwaitExpr"
  | .importExpression => "ImportExpr"
  | .functionDeclaration | .functionExpression | .arrowFunctionExpression => "Function"
  | .classDeclaration | .classExpression => "Class"
  | .methodDefinition => "MethodDef"
  | .propertyDefinition => "PropertyDef"
  | .staticBlock | .blockStatement => "BlockStmt"
  | .expressionStatement => "ExprStmt"
  | .returnStatement => "ReturnStmt"
  | .ifStatement => "IfStmt"
  | .labeledStatement => "LabeledStmt"
  | .breakStatement | .continueStatement => "JumpStmt"
  | .withStatement => "WithStmt"
  | .switchStatement => "SwitchStmt"
  | .throwStatement => "ThrowStmt"
  | .tryStatement => "TryStmt"
  | .whileStatement | .doWhileStatement => "WhileStmt"
  | .forStatement => "ForStmt"
  | .forInStatement | .forOfStatement => "ForInOfStmt"
  | .variableDeclaration => "VarDecl"
  | .variableDeclarator => "VarDeclarator"
  | .objectPattern => "ObjPat"
  | .arrayPattern => "ArrPat"
  | .assignmentPattern => "AssignPat"
  | .importDeclaration => "ImportDecl"
  | .importDefaultSpecifier | .importNamespaceSpecifier => "ImportBinding"
  | .exportNamedDeclaration => "ExportNamedDecl"
  | .exportDefaultDeclaration => "ExportDefaultDecl"
  | .exportAllDeclaration => "ExportAllDecl"
  | .jsxIdentifier => "JsxIdentifier"
  | .jsxNamespacedName => "JsxNamespacedName"
  | .jsxMemberExpression => "JsxMemberExpr"
  | .jsxElement => "JsxElem"
  | .jsxFragment => "JsxFragment"
  | .jsxOpeningElement => "JsxOpeningElem"
  | .jsxClosingElement => "JsxClosingElem"
  | .jsxAttribute => "JsxAttr"
  | .jsxSpreadAttribute => "JsxSpreadAttr"
  | .jsxExpressionContainer | .jsxSpreadChild => "JsxExprContainer"
  | .jsxText => "JsxText"
  | kind => kind.tag

/-- The record that holds the parts of a node. -/
def schema (kind : Kind) : Schema :=
  ⟨kind.recordName, kind.layout⟩

end Kind

namespace Schema

/-- The record of a regular expression. -/
def regex : Schema :=
  ⟨"RegexLit", [⟨.pattern, .text⟩, ⟨.flags, .textOrEmpty⟩]⟩

/-- The record of the two forms of a template chunk. -/
def chunkText : Schema :=
  ⟨"TemplateElementValue", [⟨.raw, .text⟩, ⟨.cooked, .optText⟩]⟩

/-- The record of a template chunk. -/
def chunk : Schema :=
  ⟨"TemplateElement", [⟨.value, .chunkText⟩, ⟨.tail, .flag⟩]⟩

end Schema

end TreeQuery
