import TreeQuery.Grammar.Layout
import TreeQuery.Json.Basic

/-!
# Syntax nodes

A node has a kind and exactly the parts that the layout of its kind lists, so a well-formed node is
any term of the type. A node of a kind outside the grammar is `unsupported` and has no parts.
-/

namespace TreeQuery

/-- The value of a literal. -/
inductive LiteralValue where
  /-- The value `null`. -/
  | null
  /-- A truth value. -/
  | bool (value : Bool)
  /-- A number. -/
  | number (value : Double)
  /-- A text. -/
  | text (value : String)
  /-- A list or an object, which is no value of the language. -/
  | composite (value : Json)

/-- A regular expression literal. -/
structure Regex where
  /-- The text between the slashes. -/
  pattern : String
  /-- The letters behind them. -/
  flags : String
deriving DecidableEq, Repr

/-- The two forms of a template chunk. -/
structure ChunkText where
  /-- The chunk as written. -/
  raw : String
  /-- The chunk with its escapes replaced; one with an invalid escape has none. -/
  cooked : Option String
deriving DecidableEq, Repr

/-- A template chunk. -/
structure Chunk where
  /-- Its two forms. -/
  text : ChunkText
  /-- Whether it is the last one. -/
  tail : Bool
deriving DecidableEq, Repr

mutual

/-- A syntax node. -/
inductive Node : Type where
  /-- A node with the parts of its kind. -/
  | mk (kind : Kind) (parts : Parts kind.layout)
  /-- A node of a kind outside the grammar. -/
  | unsupported

/-- The parts that a list of slots calls for. -/
inductive Parts : List Slot → Type where
  /-- No parts. -/
  | nil : Parts []
  /-- A part for the first slot and parts for the others. -/
  | cons {field : Field} {shape : Shape} {slots : List Slot} (head : Part shape)
      (tail : Parts slots) : Parts (⟨field, shape⟩ :: slots)

/-- What a slot of a given shape holds. -/
inductive Part : Shape → Type where
  /-- A node. -/
  | node (value : Node) : Part .node
  /-- A node or nothing. -/
  | optNode (value : Option Node) : Part .optNode
  /-- A list of nodes. -/
  | nodes (values : List Node) : Part .nodes
  /-- A list of nodes with holes. -/
  | holes (values : List (Option Node)) : Part .holes
  /-- A truth value. -/
  | flag (value : Bool) : Part .flag
  /-- A text. -/
  | text (value : String) : Part .text
  /-- A text or nothing. -/
  | optText (value : Option String) : Part .optText
  /-- A text that is empty when it is not given. -/
  | textOrEmpty (value : String) : Part .textOrEmpty
  /-- A word of a vocabulary. -/
  | choice {vocabulary : Vocabulary} (word : vocabulary.Word) : Part (.choice vocabulary)
  /-- The value of a literal. -/
  | literal (value : LiteralValue) : Part .literal
  /-- A regular expression or nothing. -/
  | regex (value : Option Regex) : Part .regex
  /-- The two forms of a template chunk. -/
  | chunkText (value : ChunkText) : Part .chunkText
  /-- A template chunk. -/
  | chunk (value : Chunk) : Part .chunk
  /-- The chunks of a template. -/
  | chunks (values : List Chunk) : Part .chunks

end

instance : Inhabited Node := ⟨.unsupported⟩

/-! ## Parts as tuples -/

/-- What a shape holds, with values of type `α` in the places of nodes. -/
abbrev Shape.Holds (α : Type) : Shape → Type
  | .node => α
  | .optNode => Option α
  | .nodes => List α
  | .holes => List (Option α)
  | .flag => Bool
  | .text => String
  | .optText => Option String
  | .textOrEmpty => String
  | .choice vocabulary => vocabulary.Word
  | .literal => LiteralValue
  | .regex => Option Regex
  | .chunkText => ChunkText
  | .chunk => Chunk
  | .chunks => List Chunk

/-- The parts for a list of slots as a tuple, with values of type `α` in the places of nodes. -/
abbrev Row (α : Type) : List Slot → Type
  | [] => Unit
  | slot :: slots => slot.shape.Holds α × Row α slots

/-- The content of a part. -/
def Part.content {shape : Shape} : Part shape → shape.Holds Node
  | .node value => value
  | .optNode value => value
  | .nodes values => values
  | .holes values => values
  | .flag value => value
  | .text value => value
  | .optText value => value
  | .textOrEmpty value => value
  | .choice word => word
  | .literal value => value
  | .regex value => value
  | .chunkText value => value
  | .chunk value => value
  | .chunks values => values

/-- The part with a content. -/
def Part.ofContent : {shape : Shape} → shape.Holds Node → Part shape
  | .node, value => .node value
  | .optNode, value => .optNode value
  | .nodes, values => .nodes values
  | .holes, values => .holes values
  | .flag, value => .flag value
  | .text, value => .text value
  | .optText, value => .optText value
  | .textOrEmpty, value => .textOrEmpty value
  | .choice _, word => .choice word
  | .literal, value => .literal value
  | .regex, value => .regex value
  | .chunkText, value => .chunkText value
  | .chunk, value => .chunk value
  | .chunks, values => .chunks values

/-- The parts as a tuple. -/
def Parts.row {slots : List Slot} : Parts slots → Row Node slots
  | .nil => ()
  | .cons head tail => (head.content, tail.row)

/-- The parts of a tuple. -/
def Parts.ofRow : {slots : List Slot} → Row Node slots → Parts slots
  | [], () => .nil
  | _ :: _, (head, tail) => .cons (.ofContent head) (.ofRow tail)

theorem Part.ofContent_content {shape : Shape} (part : Part shape) :
    Part.ofContent part.content = part := by
  cases part <;> rfl

theorem Part.content_ofContent {shape : Shape} (content : shape.Holds Node) :
    (Part.ofContent content).content = content := by
  cases shape <;> rfl

@[simp] theorem Parts.ofRow_row {slots : List Slot} (parts : Parts slots) :
    Parts.ofRow parts.row = parts := by
  induction slots with
  | nil => cases parts; rfl
  | cons slot slots induction =>
      cases parts with
      | cons head tail =>
          change Parts.cons (Part.ofContent head.content) (Parts.ofRow tail.row) = _
          rw [Part.ofContent_content, induction]

@[simp] theorem Parts.row_ofRow {slots : List Slot} (row : Row Node slots) :
    (Parts.ofRow row).row = row := by
  induction slots with
  | nil => rfl
  | cons slot slots induction => rw [Parts.ofRow, Parts.row, Part.content_ofContent, induction]

namespace Node

/-- The node of a kind with the given parts. -/
def make (kind : Kind) (row : Row Node kind.layout) : Node :=
  .mk kind (.ofRow row)

@[simp] theorem make_row (kind : Kind) (parts : Parts kind.layout) :
    make kind parts.row = .mk kind parts := by
  rw [make, Parts.ofRow_row]

/-- The kind of a node; an unsupported node has none. -/
def kind? : Node → Option Kind
  | .mk kind _ => some kind
  | .unsupported => none

/-- The type name of a node; an unsupported node has none. -/
def tag? (node : Node) : Option String :=
  node.kind?.map Kind.typeName

/-- The name of a plain identifier. -/
def identifierName? : Node → Option String
  | .mk .identifier parts => some parts.row.1
  | _ => none

/-- Whether a node is a plain identifier. -/
def isIdentifier (node : Node) : Bool :=
  node.kind? == some .identifier

end Node

/-! ## Folding -/

/-- How the value of a node comes from the values of its children. -/
structure Algebra (α : Type) where
  /-- The value of a node, by its kind and its parts with values in the places of nodes. -/
  node : (kind : Kind) → Row α kind.layout → α
  /-- The value of an unsupported node. -/
  unsupported : α

mutual

/-- The value of a node, computed from its children upward. -/
def Node.fold {α : Type} (algebra : Algebra α) : Node → α
  | .mk kind parts => algebra.node kind (parts.fold algebra)
  | .unsupported => algebra.unsupported

/-- The parts with their nodes replaced by values. -/
def Parts.fold {α : Type} (algebra : Algebra α) {slots : List Slot} : Parts slots → Row α slots
  | .nil => ()
  | .cons head tail => (head.fold algebra, tail.fold algebra)

/-- A part with its nodes replaced by values. -/
def Part.fold {α : Type} (algebra : Algebra α) {shape : Shape} : Part shape → shape.Holds α
  | .node value => value.fold algebra
  | .optNode none => none
  | .optNode (some value) => some (value.fold algebra)
  | .nodes values => Node.foldList algebra values
  | .holes values => Node.foldHoles algebra values
  | .flag value => value
  | .text value => value
  | .optText value => value
  | .textOrEmpty value => value
  | .choice word => word
  | .literal value => value
  | .regex value => value
  | .chunkText value => value
  | .chunk value => value
  | .chunks values => values

/-- The values of a list of nodes. -/
def Node.foldList {α : Type} (algebra : Algebra α) : List Node → List α
  | [] => []
  | value :: values => value.fold algebra :: Node.foldList algebra values

/-- The values of a list of nodes with holes. -/
def Node.foldHoles {α : Type} (algebra : Algebra α) : List (Option Node) → List (Option α)
  | [] => []
  | none :: values => none :: Node.foldHoles algebra values
  | some value :: values => some (value.fold algebra) :: Node.foldHoles algebra values

end

/-! ## Parts by name -/

/-- The truth value that a part holds. -/
def Part.isSet {shape : Shape} : Part shape → Bool
  | .flag value => value
  | _ => false

/-- Whether an optional part holds a node. -/
def Part.isPresent {shape : Shape} : Part shape → Bool
  | .optNode value => value.isSome
  | _ => false

/-- The text that a part holds. -/
def Part.text? {shape : Shape} : Part shape → Option String
  | .text value => some value
  | _ => none

/-- The kind of the node that a part holds. -/
def Part.kind? {shape : Shape} : Part shape → Option Kind
  | .node value => value.kind?
  | .optNode (some value) => value.kind?
  | _ => none

/-- Whether the flag with a name is set. -/
def Parts.isSet (wanted : Field) {slots : List Slot} : Parts slots → Bool
  | .nil => false
  | @Parts.cons field _ _ head tail => if field = wanted then head.isSet else tail.isSet wanted

/-- Whether the optional part with a name holds a node. -/
def Parts.isPresent (wanted : Field) {slots : List Slot} : Parts slots → Bool
  | .nil => false
  | @Parts.cons field _ _ head tail =>
      if field = wanted then head.isPresent else tail.isPresent wanted

/-- The text of the part with a name. -/
def Parts.text? (wanted : Field) {slots : List Slot} : Parts slots → Option String
  | .nil => none
  | @Parts.cons field _ _ head tail => if field = wanted then head.text? else tail.text? wanted

/-- The kind of the node in the part with a name. -/
def Parts.kindAt? (wanted : Field) {slots : List Slot} : Parts slots → Option Kind
  | .nil => none
  | @Parts.cons field _ _ head tail => if field = wanted then head.kind? else tail.kindAt? wanted

end TreeQuery
