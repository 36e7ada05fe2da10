/-!
# Vocabularies

Some parts of a node hold one word of a fixed vocabulary: an operator, or a kind of declaration,
property, method or source text.
-/

namespace TreeQuery

/-- How a source text is to be read. -/
inductive SourceType where
  | script | ecmaModule
deriving DecidableEq, Repr

/-- The kind of an object property. -/
inductive PropertyKind where
  | init | get | set
deriving DecidableEq, Repr

/-- The kind of a class method. -/
inductive MethodKind where
  | constructor | method | get | set
deriving DecidableEq, Repr

/-- The kind of a variable declaration. -/
inductive DeclarationKind where
  | functionScoped | blockScoped | constant | disposable | asyncDisposable
deriving DecidableEq, Repr

/-- An operator between two evaluated operands. -/
inductive BinaryOperator where
  | looseEq | notLooseEq | strictEq | notStrictEq | less | lessEq | greater | greaterEq
  | shiftLeft | shiftRight | shiftRightUnsigned | add | sub | mul | div | rem | exp
  | bitOr | bitXor | bitAnd | memberOf | instanceOf
deriving DecidableEq, Repr

/-- An operator that may skip its right operand. -/
inductive LogicalOperator where
  | and | or | coalesce
deriving DecidableEq, Repr

/-- An operator before its operand. -/
inductive UnaryOperator where
  | negate | plus | not | bitNot | typeOf | void | delete
deriving DecidableEq, Repr

/-- An operator that counts its operand up or down. -/
inductive UpdateOperator where
  | increment | decrement
deriving DecidableEq, Repr

/-- An assignment, alone or combined with an operation. -/
inductive AssignmentOperator where
  | assign | add | sub | mul | div | rem | exp | shiftLeft | shiftRight | shiftRightUnsigned
  | bitOr | bitXor | bitAnd | and | or | coalesce
deriving DecidableEq, Repr

/-- The vocabularies. -/
inductive Vocabulary where
  | sourceType | propertyKind | methodKind | declarationKind
  | binary | logical | unary | update | assignment
deriving DecidableEq, Repr

namespace Vocabulary

/-- The words of a vocabulary. -/
abbrev Word : Vocabulary → Type
  | .sourceType => SourceType
  | .propertyKind => PropertyKind
  | .methodKind => MethodKind
  | .declarationKind => DeclarationKind
  | .binary => BinaryOperator
  | .logical => LogicalOperator
  | .unary => UnaryOperator
  | .update => UpdateOperator
  | .assignment => AssignmentOperator

instance : (vocabulary : Vocabulary) → DecidableEq vocabulary.Word
  | .sourceType => inferInstanceAs (DecidableEq SourceType)
  | .propertyKind => inferInstanceAs (DecidableEq PropertyKind)
  | .methodKind => inferInstanceAs (DecidableEq MethodKind)
  | .declarationKind => inferInstanceAs (DecidableEq DeclarationKind)
  | .binary => inferInstanceAs (DecidableEq BinaryOperator)
  | .logical => inferInstanceAs (DecidableEq LogicalOperator)
  | .unary => inferInstanceAs (DecidableEq UnaryOperator)
  | .update => inferInstanceAs (DecidableEq UpdateOperator)
  | .assignment => inferInstanceAs (DecidableEq AssignmentOperator)

/-- The words of a vocabulary with their spellings, in the order in which messages list them. -/
def spellings : (vocabulary : Vocabulary) → List (String × vocabulary.Word)
  | .sourceType => [("script", .script), ("module", .ecmaModule)]
  | .propertyKind => [("init", .init), ("get", .get), ("set", .set)]
  | .methodKind =>
      [("constructor", .constructor), ("method", .method), ("get", .get), ("set", .set)]
  | .declarationKind =>
      [("var", .functionScoped), ("let", .blockScoped), ("const", .constant),
       ("using", .disposable), ("await using", .asyncDisposable)]
  | .binary =>
      [("==", .looseEq), ("!=", .notLooseEq), ("===", .strictEq), ("!==", .notStrictEq),
       ("<", .less), ("<=", .lessEq), (">", .greater), (">=", .greaterEq), ("<<", .shiftLeft),
       (">>", .shiftRight), (">>>", .shiftRightUnsigned), ("+", .add), ("-", .sub), ("*", .mul),
       ("/", .div), ("%", .rem), ("**", .exp), ("|", .bitOr), ("^", .bitXor), ("&", .bitAnd),
       ("in", .memberOf), ("instanceof", .instanceOf)]
  | .logical => [("&&", .and), ("||", .or), ("??", .coalesce)]
  | .unary =>
      [("-", .negate), ("+", .plus), ("!", .not), ("~", .bitNot), ("typeof", .typeOf),
       ("void", .void), ("delete", .delete)]
  | .update => [("++", .increment), ("--", .decrement)]
  | .assignment =>
      [("=", .assign), ("+=", .add), ("-=", .sub), ("*=", .mul), ("/=", .div), ("%=", .rem),
       ("**=", .exp), ("<<=", .shiftLeft), (">>=", .shiftRight), (">>>=", .shiftRightUnsigned),
       ("|=", .bitOr), ("^=", .bitXor), ("&=", .bitAnd), ("&&=", .and), ("||=", .or),
       ("??=", .coalesce)]

/-- The word with a spelling. -/
def word? (vocabulary : Vocabulary) (spelling : String) : Option vocabulary.Word :=
  vocabulary.spellings.lookup spelling

/-- The word that a missing part stands for, in the vocabularies that have one. -/
def fallback? : (vocabulary : Vocabulary) → Option vocabulary.Word
  | .sourceType => some .script
  | .propertyKind => some .init
  | .methodKind => some .method
  | _ => none

end Vocabulary

end TreeQuery
