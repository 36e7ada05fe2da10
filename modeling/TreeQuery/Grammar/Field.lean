/-!
# Names of node parts

The parts of a syntax node, each with the key under which a document holds it.
-/

namespace TreeQuery

/-- The name of a part of a node. -/
inductive Field where
  | body | sourceType | name | value | raw | regex | bigint | elements | properties | key
  | computed | shorthand | method | kind | argument | quasis | expressions | tag | quasi | callee
  | arguments | optional | object | property | expression | test | consequent | alternate
  | operator | left | right | prefixed | delegate | source | metaName | id | params | isAsync
  | generator | superClass | isStatic | directive | label | discriminant | cases | block | handler
  | finalizer | param | init | update | isAwait | declarations | specifiers | imported | localName
  | declaration | exported | nameSpace | openingElement | closingElement | children | attributes
  | selfClosing | pattern | flags | tail | cooked
deriving DecidableEq, Repr

/-- The key of a field in a document. -/
def Field.spelling : Field → String
  | .body => "body"
  | .sourceType => "sourceType"
  | .name => "name"
  | .value => "value"
  | .raw => "raw"
  | .regex => "regex"
  | .bigint => "bigint"
  | .elements => "elements"
  | .properties => "properties"
  | .key => "key"
  | .computed => "computed"
  | .shorthand => "shorthand"
  | .method => "method"
  | .kind => "kind"
  | .argument => "argument"
  | .quasis => "quasis"
  | .expressions => "expressions"
  | .tag => "tag"
  | .quasi => "quasi"
  | .callee => "callee"
  | .arguments => "arguments"
  | .optional => "optional"
  | .object => "object"
  | .property => "property"
  | .expression => "expression"
  | .test => "test"
  | .consequent => "consequent"
  | .alternate => "alternate"
  | .operator => "operator"
  | .left => "left"
  | .right => "right"
  | .prefixed => "prefix"
  | .delegate => "delegate"
  | .source => "source"
  | .metaName => "meta"
  | .id => "id"
  | .params => "params"
  | .isAsync => "async"
  | .generator => "generator"
  | .superClass => "superClass"
  | .isStatic => "static"
  | .directive => "directive"
  | .label => "label"
  | .discriminant => "discriminant"
  | .cases => "cases"
  | .block => "block"
  | .handler => "handler"
  | .finalizer => "finalizer"
  | .param => "param"
  | .init => "init"
  | .update => "update"
  | .isAwait => "await"
  | .declarations => "declarations"
  | .specifiers => "specifiers"
  | .imported => "imported"
  | .localName => "local"
  | .declaration => "declaration"
  | .exported => "exported"
  | .nameSpace => "namespace"
  | .openingElement => "openingElement"
  | .closingElement => "closingElement"
  | .children => "children"
  | .attributes => "attributes"
  | .selfClosing => "selfClosing"
  | .pattern => "pattern"
  | .flags => "flags"
  | .tail => "tail"
  | .cooked => "cooked"

end TreeQuery
