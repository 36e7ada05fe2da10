import TreeQuery.Proofs.Load.Value

/-!
# The written form of a tree

How an ESTree document writes a tree, apart from how it is read: under which names the kinds of
nodes stand, under which keys their parts, what the parts hold, and how words are spelled. The
tables by which a document is read agree with these, entry by entry.
-/

namespace TreeQuery

/-! ## Words -/

/-- How the type of a source text is written. -/
def SourceType.written : SourceType → String
  | .script => "script"
  | .ecmaModule => "module"

/-- How the kind of a property is written. -/
def PropertyKind.written : PropertyKind → String
  | .init => "init"
  | .get => "get"
  | .set => "set"

/-- How the kind of a method is written. -/
def MethodKind.written : MethodKind → String
  | .constructor => "constructor"
  | .method => "method"
  | .get => "get"
  | .set => "set"

/-- How the kind of a declaration is written. -/
def DeclarationKind.written : DeclarationKind → String
  | .functionScoped => "var"
  | .blockScoped => "let"
  | .constant => "const"
  | .disposable => "using"
  | .asyncDisposable => "await using"

/-- How an operator between two operands is written. -/
def BinaryOperator.written : BinaryOperator → String
  | .looseEq => "=="
  | .notLooseEq => "!="
  | .strictEq => "==="
  | .notStrictEq => "!=="
  | .less => "<"
  | .lessEq => "<="
  | .greater => ">"
  | .greaterEq => ">="
  | .shiftLeft => "<<"
  | .shiftRight => ">>"
  | .shiftRightUnsigned => ">>>"
  | .add => "+"
  | .sub => "-"
  | .mul => "*"
  | .div => "/"
  | .rem => "%"
  | .exp => "**"
  | .bitOr => "|"
  | .bitXor => "^"
  | .bitAnd => "&"
  | .memberOf => "in"
  | .instanceOf => "instanceof"

/-- How an operator that may skip an operand is written. -/
def LogicalOperator.written : LogicalOperator → String
  | .and => "&&"
  | .or => "||"
  | .coalesce => "??"

/-- How an operator before its operand is written. -/
def UnaryOperator.written : UnaryOperator → String
  | .negate => "-"
  | .plus => "+"
  | .not => "!"
  | .bitNot => "~"
  | .typeOf => "typeof"
  | .void => "void"
  | .delete => "delete"

/-- How counting up or down is written. -/
def UpdateOperator.written : UpdateOperator → String
  | .increment => "++"
  | .decrement => "--"

/-- How an assignment is written. -/
def AssignmentOperator.written : AssignmentOperator → String
  | .assign => "="
  | .add => "+="
  | .sub => "-="
  | .mul => "*="
  | .div => "/="
  | .rem => "%="
  | .exp => "**="
  | .shiftLeft => "<<="
  | .shiftRight => ">>="
  | .shiftRightUnsigned => ">>>="
  | .bitOr => "|="
  | .bitXor => "^="
  | .bitAnd => "&="
  | .and => "&&="
  | .or => "||="
  | .coalesce => "??="

namespace Vocabulary

/-- How a word is written. -/
def written : (vocabulary : Vocabulary) → vocabulary.Word → String
  | .sourceType => SourceType.written
  | .propertyKind => PropertyKind.written
  | .methodKind => MethodKind.written
  | .declarationKind => DeclarationKind.written
  | .binary => BinaryOperator.written
  | .logical => LogicalOperator.written
  | .unary => UnaryOperator.written
  | .update => UpdateOperator.written
  | .assignment => AssignmentOperator.written

/-- The word that may be left out: a source text is a script, a property is initialised and a method
is a plain one. Operators and kinds of declarations are always written. -/
def unwritten? : (vocabulary : Vocabulary) → Option vocabulary.Word
  | .sourceType => some .script
  | .propertyKind => some .init
  | .methodKind => some .method
  | .declarationKind | .binary | .logical | .unary | .update | .assignment => none

/-- Every word is read where it is written. -/
theorem written_mem_spellings {vocabulary : Vocabulary} (word : vocabulary.Word) :
    (vocabulary.written word, word) ∈ vocabulary.spellings := by
  cases vocabulary <;> cases word <;> decide

theorem fallback?_eq (vocabulary : Vocabulary) : vocabulary.fallback? = vocabulary.unwritten? := by
  cases vocabulary <;> rfl

end Vocabulary

/-! ## Kinds -/

namespace Kind

/-- The names under which older documents write a kind. -/
def olderNames : Kind → List String
  | .spreadElement => ["ExperimentalSpreadProperty"]
  | .restElement => ["ExperimentalRestProperty"]
  | _ => []

/-- A node of the kind may be written under the name. -/
def IsWritten (kind : Kind) (name : String) : Prop :=
  name = kind.typeName ∨ name ∈ kind.olderNames

/-- The name that is shown is the tag that is read. -/
theorem typeName_eq_tag (kind : Kind) : kind.typeName = kind.tag := by
  cases kind <;> rfl

theorem mem_olderNames_iff {kind : Kind} {name : String} :
    name ∈ kind.olderNames ↔ (name, kind) ∈ legacyTags := by
  cases kind <;> simp [olderNames, legacyTags]

/-- The names of a kind are the tags by which it is read. -/
theorem isWritten_iff {kind : Kind} {name : String} : kind.IsWritten name ↔ kind.IsNamed name := by
  rw [IsWritten, IsNamed, typeName_eq_tag, mem_olderNames_iff]

/-- The parts of a node as a document writes them: the key of each, and what it holds. -/
def record : Kind → List (String × Shape)
  | .program => [("body", .nodes), ("sourceType", .choice .sourceType)]
  | .identifier => [("name", .text)]
  | .privateIdentifier => [("name", .text)]
  | .literal =>
      [("value", .literal), ("raw", .optText), ("regex", .regex), ("bigint", .optText)]
  | .thisExpression => []
  | .super => []
  | .arrayExpression => [("elements", .holes)]
  | .objectExpression => [("properties", .nodes)]
  | .property =>
      [("key", .node), ("value", .node), ("computed", .flag), ("shorthand", .flag),
       ("method", .flag), ("kind", .choice .propertyKind)]
  | .spreadElement => [("argument", .node)]
  | .templateLiteral => [("quasis", .chunks), ("expressions", .nodes)]
  | .taggedTemplateExpression => [("tag", .node), ("quasi", .node)]
  | .sequenceExpression => [("expressions", .nodes)]
  | .callExpression => [("callee", .node), ("arguments", .nodes), ("optional", .flag)]
  | .newExpression => [("callee", .node), ("arguments", .nodes), ("optional", .flag)]
  | .memberExpression =>
      [("object", .node), ("property", .node), ("computed", .flag), ("optional", .flag)]
  | .chainExpression => [("expression", .node)]
  | .parenthesizedExpression => [("expression", .node)]
  | .conditionalExpression => [("test", .node), ("consequent", .node), ("alternate", .node)]
  | .binaryExpression => [("operator", .choice .binary), ("left", .node), ("right", .node)]
  | .logicalExpression => [("operator", .choice .logical), ("left", .node), ("right", .node)]
  | .assignmentExpression =>
      [("operator", .choice .assignment), ("left", .node), ("right", .node)]
  | .unaryExpression => [("operator", .choice .unary), ("argument", .node)]
  | .updateExpression =>
      [("operator", .choice .update), ("argument", .node), ("prefix", .flag)]
  | .yieldExpression => [("argument", .optNode), ("delegate", .flag)]
  | .awaitExpression => [("argument", .node)]
  | .importExpression => [("source", .node)]
  | .metaProperty => [("meta", .node), ("property", .node)]
  | .functionDeclaration | .functionExpression | .arrowFunctionExpression =>
      [("id", .optNode), ("params", .nodes), ("body", .node), ("async", .flag),
       ("generator", .flag), ("expression", .flag)]
  | .classDeclaration | .classExpression =>
      [("id", .optNode), ("superClass", .optNode), ("body", .node)]
  | .classBody => [("body", .nodes)]
  | .methodDefinition =>
      [("key", .node), ("value", .node), ("computed", .flag), ("static", .flag),
       ("kind", .choice .methodKind)]
  | .propertyDefinition =>
      [("key", .node), ("value", .optNode), ("computed", .flag), ("static", .flag)]
  | .staticBlock => [("body", .nodes)]
  | .expressionStatement => [("expression", .node), ("directive", .optText)]
  | .blockStatement => [("body", .nodes)]
  | .emptyStatement => []
  | .debuggerStatement => []
  | .returnStatement => [("argument", .optNode)]
  | .ifStatement => [("test", .node), ("consequent", .node), ("alternate", .optNode)]
  | .labeledStatement => [("label", .node), ("body", .node)]
  | .breakStatement => [("label", .optNode)]
  | .continueStatement => [("label", .optNode)]
  | .withStatement => [("object", .node), ("body", .node)]
  | .switchStatement => [("discriminant", .node), ("cases", .nodes)]
  | .switchCase => [("test", .optNode), ("consequent", .nodes)]
  | .throwStatement => [("argument", .node)]
  | .tryStatement => [("block", .node), ("handler", .optNode), ("finalizer", .optNode)]
  | .catchClause => [("param", .optNode), ("body", .node)]
  | .whileStatement => [("test", .node), ("body", .node)]
  | .doWhileStatement => [("test", .node), ("body", .node)]
  | .forStatement =>
      [("init", .optNode), ("test", .optNode), ("update", .optNode), ("body", .node)]
  | .forInStatement | .forOfStatement =>
      [("left", .node), ("right", .node), ("body", .node), ("await", .flag)]
  | .variableDeclaration => [("declarations", .nodes), ("kind", .choice .declarationKind)]
  | .variableDeclarator => [("id", .node), ("init", .optNode)]
  | .objectPattern => [("properties", .nodes)]
  | .arrayPattern => [("elements", .holes)]
  | .assignmentPattern => [("left", .node), ("right", .node)]
  | .restElement => [("argument", .node)]
  | .importDeclaration => [("specifiers", .nodes), ("source", .node)]
  | .importSpecifier => [("imported", .node), ("local", .node)]
  | .importDefaultSpecifier => [("local", .node)]
  | .importNamespaceSpecifier => [("local", .node)]
  | .exportNamedDeclaration =>
      [("declaration", .optNode), ("specifiers", .nodes), ("source", .optNode)]
  | .exportSpecifier => [("local", .node), ("exported", .node)]
  | .exportDefaultDeclaration => [("declaration", .node)]
  | .exportAllDeclaration => [("source", .node), ("exported", .optNode)]
  | .jsxIdentifier => [("name", .text)]
  | .jsxNamespacedName => [("namespace", .node), ("name", .node)]
  | .jsxMemberExpression => [("object", .node), ("property", .node)]
  | .jsxElement =>
      [("openingElement", .node), ("closingElement", .optNode), ("children", .nodes)]
  | .jsxFragment => [("children", .nodes)]
  | .jsxOpeningElement => [("name", .node), ("attributes", .nodes), ("selfClosing", .flag)]
  | .jsxClosingElement => [("name", .node)]
  | .jsxAttribute => [("name", .node), ("value", .optNode)]
  | .jsxSpreadAttribute => [("argument", .node)]
  | .jsxExpressionContainer => [("expression", .node)]
  | .jsxEmptyExpression => []
  | .jsxSpreadChild => [("expression", .node)]
  | .jsxText => [("value", .text), ("raw", .optText)]

/-- The parts of a node are read under the keys under which they are written, as what they hold. -/
theorem layout_eq_record (kind : Kind) :
    (kind.layout.map fun slot => (slot.field.spelling, slot.shape)) = kind.record := by
  cases kind <;> rfl

end Kind

end TreeQuery
