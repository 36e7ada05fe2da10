import TreeQuery.Proofs.Load.Estree
import TreeQuery.Proofs.Trail

/-!
# Loading undoes writing

A node has many renderings: members stand in any order, an absent part is left out or written as
`null`, a part that holds its default is left out or written, an older tag may stand for a newer
one, and members that name no part do not count. Whichever of them is loaded, the node comes back.
-/

namespace TreeQuery

open Json (IsOmitted lastMember?)

/-! ## How parts without nodes are written -/

/-- What stands in the place of a truth value, which is left out only if it is false. -/
def WritesFlag (place : Option Json) (value : Bool) : Prop :=
  place = some (.bool value) ∨ place = none ∧ value = false

/-- What stands in the place of a text. -/
def WritesText (place : Option Json) (text : String) : Prop :=
  place = some (.string text)

/-- What stands in the place of a text that may be absent. -/
def WritesOptText (place : Option Json) : Option String → Prop
  | none => IsOmitted place
  | some text => WritesText place text

/-- What stands in the place of a text that is left out only if it is empty. -/
def WritesTextOrEmpty (place : Option Json) (text : String) : Prop :=
  WritesText place text ∨ place = none ∧ text = ""

/-- What stands in the place of a word, which is left out only if it is the one meant then. -/
def WritesWord (place : Option Json) {vocabulary : Vocabulary} (word : vocabulary.Word) : Prop :=
  WritesText place (vocabulary.written word) ∨ place = none ∧ vocabulary.unwritten? = some word

/-- The values that write the value of a literal. -/
def LiteralValue.WrittenBy : LiteralValue → Json → Prop
  | .null, json => json = .null
  | .bool value, json => json = .bool value
  | .number value, json => ∃ number : Json.Number, json = .number number ∧ number.toDouble = value
  | .text value, json => json = .string value
  | .composite value, json => json.canonical = value

/-- The members that write a regular expression. -/
def Regex.WrittenBy (regex : Regex) (members : List (String × Json)) : Prop :=
  WritesText (lastMember? "pattern" members) regex.pattern ∧
    WritesTextOrEmpty (lastMember? "flags" members) regex.flags

/-- The members that write the two forms of a chunk. -/
def ChunkText.WrittenBy (text : ChunkText) (members : List (String × Json)) : Prop :=
  WritesText (lastMember? "raw" members) text.raw ∧
    WritesOptText (lastMember? "cooked" members) text.cooked

/-- The values that write a chunk. -/
def Chunk.WrittenBy (chunk : Chunk) (value : Json) : Prop :=
  ∃ members forms, value = .object members ∧
    lastMember? "value" members = some (.object forms) ∧ chunk.text.WrittenBy forms ∧
      WritesFlag (lastMember? "tail" members) chunk.tail

/-! ## How nodes are written -/

mutual

/-- The values that write a node: objects with a type that names its kind and members that write its
parts. A node of a kind outside the grammar has any other type and any members. -/
def Node.WrittenBy : Node → Json → Prop
  | .mk kind parts, value =>
      ∃ members name, value = .object members ∧ lastMember? "type" members = some (.string name) ∧
        kind.IsWritten name ∧ parts.WrittenBy kind.record members
  | .unsupported, value =>
      ∃ members name, value = .object members ∧ lastMember? "type" members = some (.string name) ∧
        ∀ kind : Kind, ¬ kind.IsWritten name

/-- The members that write parts, each under its key in the record. -/
def Parts.WrittenBy {slots : List Slot} :
    Parts slots → List (String × Shape) → List (String × Json) → Prop
  | .nil, record, _ => record = []
  | @Parts.cons _ shape _ head tail, record, members =>
      ∃ key rest, record = (key, shape) :: rest ∧ head.WrittenAt (lastMember? key members) ∧
        tail.WrittenBy rest members

/-- What stands in the place of a part. -/
def Part.WrittenAt {shape : Shape} : Part shape → Option Json → Prop
  | .node node, place => ∃ value, place = some value ∧ node.WrittenBy value
  | .optNode none, place => IsOmitted place
  | .optNode (some node), place => ∃ value, place = some value ∧ node.WrittenBy value
  | .nodes nodes, place =>
      (∃ items, place = some (.array items) ∧ Node.ListWrittenBy nodes items) ∨
        place = none ∧ nodes = []
  | .holes nodes, place =>
      (∃ items, place = some (.array items) ∧ Node.HolesWrittenBy nodes items) ∨
        place = none ∧ nodes = []
  | .flag value, place => WritesFlag place value
  | .text value, place => WritesText place value
  | .optText value, place => WritesOptText place value
  | .textOrEmpty value, place => WritesTextOrEmpty place value
  | .choice word, place => WritesWord place word
  | .literal value, place =>
      (∃ json, place = some json ∧ value.WrittenBy json) ∨ place = none ∧ value = .null
  | .regex none, place => IsOmitted place
  | .regex (some regex), place =>
      ∃ members, place = some (.object members) ∧ regex.WrittenBy members
  | .chunkText text, place =>
      ∃ members, place = some (.object members) ∧ text.WrittenBy members
  | .chunk chunk, place => ∃ value, place = some value ∧ chunk.WrittenBy value
  | .chunks chunks, place =>
      (∃ items, place = some (.array items) ∧ List.Forall₂ Chunk.WrittenBy chunks items) ∨
        place = none ∧ chunks = []

/-- The items that write a list of nodes. -/
def Node.ListWrittenBy : List Node → List Json → Prop
  | [], items => items = []
  | node :: nodes, items =>
      ∃ item rest, items = item :: rest ∧ node.WrittenBy item ∧ Node.ListWrittenBy nodes rest

/-- The items that write a list of nodes with holes. -/
def Node.HolesWrittenBy : List (Option Node) → List Json → Prop
  | [], items => items = []
  | none :: nodes, items => ∃ rest, items = .null :: rest ∧ Node.HolesWrittenBy nodes rest
  | some node :: nodes, items =>
      ∃ item rest, items = item :: rest ∧ node.WrittenBy item ∧ Node.HolesWrittenBy nodes rest

end

/-! ## Proper literals -/

/-- A literal that holds no value of the language holds a list or an object. -/
def LiteralValue.IsProper : LiteralValue → Prop
  | .composite (.array _) | .composite (.object _) => True
  | .composite _ => False
  | _ => True

/-- The value of a literal, where a part is one, is proper. -/
def Part.IsProper {shape : Shape} : Part shape → Prop
  | .literal value => value.IsProper
  | _ => True

/-- All parts are proper. -/
def Parts.AreProper {slots : List Slot} : Parts slots → Prop
  | .nil => True
  | .cons head tail => head.IsProper ∧ tail.AreProper

/-- The parts of a node are proper. -/
def Node.IsProper : Node → Prop
  | .mk _ parts => parts.AreProper
  | .unsupported => True

/-! ## Parts without nodes are read back -/

namespace Json

section Places

variable {place : Option Json}

theorem placePart?_flag {value : Bool} (written : WritesFlag place value) :
    placePart? .flag place = some (.flag value) := by
  rcases written with rfl | ⟨rfl, rfl⟩ <;> rfl

theorem placePart?_text {text : String} (written : WritesText place text) :
    placePart? .text place = some (.text text) := by
  obtain rfl := written
  rfl

theorem placePart?_optText {text : Option String} (written : WritesOptText place text) :
    placePart? .optText place = some (.optText text) := by
  cases text with
  | none => rcases written with rfl | rfl <;> rfl
  | some text =>
      obtain rfl := written
      rfl

theorem placePart?_textOrEmpty {text : String} (written : WritesTextOrEmpty place text) :
    placePart? .textOrEmpty place = some (.textOrEmpty text) := by
  rcases written with rfl | ⟨rfl, rfl⟩ <;> rfl

theorem placePart?_choice {vocabulary : Vocabulary} {word : vocabulary.Word}
    (written : WritesWord place word) :
    placePart? (.choice vocabulary) place = some (.choice word) := by
  rcases written with rfl | ⟨rfl, unwritten⟩
  · have read := Vocabulary.word?_eq_some_iff.mpr (Vocabulary.written_mem_spellings word)
    rw [placePart?, part?_string_choice, read]
    rfl
  · rw [← Vocabulary.fallback?_eq] at unwritten
    exact congrArg (Option.map Part.choice) unwritten

/-- A list or an object is what no literal of the language holds. -/
theorem placePart?_literal {value : LiteralValue} (proper : value.IsProper)
    (written : (Part.literal value).WrittenAt place) :
    placePart? .literal place = some (.literal value) := by
  rcases written with ⟨json, rfl, written⟩ | ⟨rfl, rfl⟩
  · cases value with
    | null =>
        obtain rfl := written
        rfl
    | bool value =>
        obtain rfl := written
        rfl
    | number value =>
        obtain ⟨number, rfl, rfl⟩ := written
        rfl
    | text value =>
        obtain rfl := written
        rfl
    | composite value =>
        obtain rfl : json.canonical = value := written
        have same := canonical_canonical json
        cases json with
        | array _ | object _ =>
            exact congrArg (fun value => some (Part.literal (.composite value))) same
        | _ => exact absurd proper id
  · rfl

theorem part?_regex {regex : Regex} {members : List (String × Json)}
    (written : regex.WrittenBy members) :
    (object members).part? .regex = some (.regex (some regex)) := by
  have parts : parts? members Schema.regex.slots =
      some (.cons (.text regex.pattern) (.cons (.textOrEmpty regex.flags) .nil)) := by
    simp only [Schema.regex, parts?, Field.spelling, placePart?_text written.1,
      placePart?_textOrEmpty written.2, Option.bind_some, Option.map_some]
  rw [part?_object_regex, parts]
  rfl

theorem part?_chunkText {text : ChunkText} {members : List (String × Json)}
    (written : text.WrittenBy members) :
    (object members).part? .chunkText = some (.chunkText text) := by
  have parts : parts? members Schema.chunkText.slots =
      some (.cons (.text text.raw) (.cons (.optText text.cooked) .nil)) := by
    simp only [Schema.chunkText, parts?, Field.spelling, placePart?_text written.1,
      placePart?_optText written.2, Option.bind_some, Option.map_some]
  rw [part?_object_chunkText, parts]
  rfl

theorem part?_chunk {chunk : Chunk} {value : Json} (written : chunk.WrittenBy value) :
    value.part? .chunk = some (.chunk chunk) := by
  obtain ⟨members, forms, rfl, inner, text, tail⟩ := written
  have forms : placePart? .chunkText (lastMember? "value" members) =
      some (.chunkText chunk.text) := by
    rw [inner]
    exact part?_chunkText text
  have parts : parts? members Schema.chunk.slots =
      some (.cons (.chunkText chunk.text) (.cons (.flag chunk.tail) .nil)) := by
    simp only [Schema.chunk, parts?, Field.spelling, forms, placePart?_flag tail,
      Option.bind_some, Option.map_some]
  rw [part?_object_chunk, parts]
  rfl

end Places

theorem mapM_part?_chunk {chunks : List Chunk} {items : List Json}
    (written : List.Forall₂ Chunk.WrittenBy chunks items) :
    (items.mapM fun (item : Json) => (item.part? .chunk).map Part.content) = some chunks := by
  induction written with
  | nil => rfl
  | cons here _ induction =>
      rw [List.mapM_cons, part?_chunk here, induction]
      rfl

end Json

/-! ## Nodes are read back -/

/-- Every value that writes a node is an object whose members yield it. -/
def Node.ReadsBack (node : Node) : Prop :=
  ∀ value, node.WrittenBy value →
    ∃ members, value = .object members ∧ Json.node? members = some node

namespace Node.ReadsBack

variable {node : Node} {value : Json} (back : node.ReadsBack) (written : node.WrittenBy value)
include back written

theorem part?_node : value.part? .node = some (.node node) := by
  obtain ⟨members, rfl, found⟩ := back value written
  rw [Json.part?_object_node, found]
  rfl

theorem part?_optNode : value.part? .optNode = some (.optNode (some node)) := by
  obtain ⟨members, rfl, found⟩ := back value written
  rw [Json.part?_object_optNode, found]
  rfl

end Node.ReadsBack

theorem Node.mapM_part?_node {nodes : List Node} {items : List Json}
    (back : ∀ node ∈ nodes, node.ReadsBack) (written : Node.ListWrittenBy nodes items) :
    (items.mapM fun (item : Json) => (item.part? .node).map Part.content) = some nodes := by
  induction nodes generalizing items with
  | nil =>
      obtain rfl : items = [] := written
      rfl
  | cons node nodes induction =>
      obtain ⟨item, rest, rfl, here, later⟩ := written
      obtain ⟨backHere, backLater⟩ := List.forall_mem_cons.mp back
      rw [List.mapM_cons, backHere.part?_node here, induction backLater later]
      rfl

theorem Node.mapM_part?_optNode {nodes : List (Option Node)} {items : List Json}
    (back : ∀ node, some node ∈ nodes → node.ReadsBack)
    (written : Node.HolesWrittenBy nodes items) :
    (items.mapM fun (item : Json) => (item.part? .optNode).map Part.content) = some nodes := by
  induction nodes generalizing items with
  | nil =>
      obtain rfl : items = [] := written
      rfl
  | cons hole nodes induction =>
      have backLater : ∀ node, some node ∈ nodes → node.ReadsBack :=
        fun node present => back node (List.mem_cons_of_mem _ present)
      cases hole with
      | none =>
          obtain ⟨rest, rfl, later⟩ := written
          rw [List.mapM_cons, induction backLater later]
          rfl
      | some node =>
          obtain ⟨item, rest, rfl, here, later⟩ := written
          have backHere := back node List.mem_cons_self
          rw [List.mapM_cons, backHere.part?_optNode here, induction backLater later]
          rfl

theorem Part.placePart?_of_writtenAt {shape : Shape} {part : Part shape} {place : Option Json}
    (back : ∀ child ∈ part.held, child.ReadsBack) (proper : part.IsProper)
    (written : part.WrittenAt place) : Json.placePart? shape place = some part := by
  cases part with
  | node node =>
      obtain ⟨value, rfl, written⟩ := written
      exact (back node List.mem_cons_self).part?_node written
  | optNode node =>
      cases node with
      | none => rcases written with rfl | rfl <;> rfl
      | some node =>
          obtain ⟨value, rfl, written⟩ := written
          exact (back node (by simp [held])).part?_optNode written
  | nodes nodes =>
      rcases written with ⟨items, rfl, written⟩ | ⟨rfl, rfl⟩
      · rw [Json.placePart?, Json.part?_array_nodes, Node.mapM_part?_node back written]
        rfl
      · rfl
  | holes nodes =>
      rcases written with ⟨items, rfl, written⟩ | ⟨rfl, rfl⟩
      · have back : ∀ node, some node ∈ nodes → node.ReadsBack :=
          fun node present => back node (by simpa [held] using present)
        rw [Json.placePart?, Json.part?_array_holes, Node.mapM_part?_optNode back written]
        rfl
      · rfl
  | flag value => exact Json.placePart?_flag written
  | text value => exact Json.placePart?_text written
  | optText value => exact Json.placePart?_optText written
  | textOrEmpty value => exact Json.placePart?_textOrEmpty written
  | choice word => exact Json.placePart?_choice written
  | literal value => exact Json.placePart?_literal proper written
  | regex regex =>
      cases regex with
      | none => rcases written with rfl | rfl <;> rfl
      | some regex =>
          obtain ⟨members, rfl, written⟩ := written
          exact Json.part?_regex written
  | chunkText text =>
      obtain ⟨members, rfl, written⟩ := written
      exact Json.part?_chunkText written
  | chunk chunk =>
      obtain ⟨value, rfl, written⟩ := written
      exact Json.part?_chunk written
  | chunks chunks =>
      rcases written with ⟨items, rfl, written⟩ | ⟨rfl, rfl⟩
      · rw [Json.placePart?, Json.part?_array_chunks, Json.mapM_part?_chunk written]
        rfl
      · rfl

/-- Parts are read back where the keys of the record are those of the slots. -/
theorem Parts.parts?_of_writtenBy {slots : List Slot} {parts : Parts slots}
    {record : List (String × Shape)} {members : List (String × Json)}
    (same : (slots.map fun slot => (slot.field.spelling, slot.shape)) = record)
    (back : ∀ field child, (field, child) ∈ parts.children → child.ReadsBack)
    (proper : parts.AreProper) (written : parts.WrittenBy record members) :
    Json.parts? members slots = some parts := by
  induction slots generalizing record with
  | nil =>
      cases parts
      rfl
  | cons slot slots induction =>
      cases parts with
      | @cons field shape _ head tail =>
          obtain ⟨key, rest, sameRecord, here, later⟩ := written
          rw [sameRecord, List.map_cons] at same
          obtain ⟨sameKey, sameRest⟩ := List.cons.inj same
          obtain ⟨rfl, -⟩ := Prod.mk.inj sameKey
          have first : Json.placePart? shape (lastMember? field.spelling members) = some head :=
            Part.placePart?_of_writtenAt
              (fun child present => back field child (mem_children_cons.mpr (.inl ⟨rfl, present⟩)))
              proper.1 here
          have others : Json.parts? members slots = some tail :=
            induction sameRest
              (fun other child present => back other child (mem_children_cons.mpr (.inr present)))
              proper.2 later
          rw [Json.parts?, first, others]
          rfl

theorem Node.readsBack (node : Node) (proper : node.Throughout Node.IsProper) : node.ReadsBack := by
  induction node using Node.induction_on_children with
  | unsupported =>
      rintro value ⟨members, name, rfl, typed, unwritten⟩
      have unnamed : ∀ kind : Kind, ¬ kind.IsNamed name :=
        fun kind named => unwritten kind (Kind.isWritten_iff.mpr named)
      exact ⟨members, rfl, Json.node?_of_unnamed typed unnamed⟩
  | mk kind parts induction =>
      rintro value ⟨members, name, rfl, typed, isWritten, written⟩
      have found : Json.parts? members kind.layout = some parts :=
        Parts.parts?_of_writtenBy kind.layout_eq_record
          (fun field child present => induction field child present (proper.child present))
          proper.root written
      refine ⟨members, rfl, ?_⟩
      rw [Json.node?_of_named typed (Kind.isWritten_iff.mp isWritten), found]
      rfl

/-- Whatever value writes a node, the node is loaded from it. -/
theorem Load.ofJson_of_writtenBy {node : Node} {value : Json}
    (proper : node.Throughout Node.IsProper) (written : node.WrittenBy value) :
    Load.ofJson value = .ok node := by
  rw [Load.ofJson_eq_ok_iff]
  -- What is left of loading is the outermost tag, which is written as a string.
  refine ⟨?_, (node.readsBack proper).part?_node written⟩
  obtain ⟨members, tag, rfl, tagged⟩ : ∃ members tag, value = .object members ∧
      lastMember? tagKey members = some (.string tag) := by
    cases node with
    | mk kind parts =>
        obtain ⟨members, tag, same, tagged, -⟩ := written
        exact ⟨members, tag, same, tagged⟩
    | unsupported =>
        obtain ⟨members, tag, same, tagged, -⟩ := written
        exact ⟨members, tag, same, tagged⟩
  intro index same
  rw [Json.outerTag?_canonical_object, tagged] at same
  cases same

theorem Load.ofJson_array_with_hole :
    let spread : Node := .make .spreadElement (.make .identifier ("xs", ()), ())
    let literal : Node := .make .literal (.composite (.object []), none, some ⟨"x", ""⟩, none, ())
    Load.ofJson (.object [
        ("elements", .array [
          .null,
          .object [
            ("type", .string "ExperimentalSpreadProperty"),
            ("argument", .object [("name", .string "xs"), ("type", .string "Identifier")])],
          .object [
            ("regex", .object [("pattern", .string "x")]), ("raw", .null),
            ("type", .string "Literal"), ("value", .object [])]]),
        ("type", .string "ArrayExpression")]) =
      .ok (.make .arrayExpression ([none, some spread, some literal], ())) := by
  intro spread literal
  have nameProper : (Node.make .identifier ("xs", ())).Throughout Node.IsProper :=
    .mk ⟨trivial, trivial⟩ nofun
  have spreadProper : spread.Throughout Node.IsProper :=
    .mk ⟨trivial, trivial⟩ (List.forall_mem_singleton.mpr nameProper)
  have literalProper : literal.Throughout Node.IsProper :=
    .mk ⟨trivial, trivial, trivial, trivial, trivial⟩ nofun
  apply Load.ofJson_of_writtenBy
  · refine .mk ⟨trivial, trivial⟩ (List.forall_mem_cons.mpr ⟨spreadProper, ?_⟩)
    exact List.forall_mem_singleton.mpr literalProper
  · refine ⟨_, "ArrayExpression", rfl, rfl, .inl rfl, "elements", [], rfl, ?_, rfl⟩
    refine .inl ⟨_, rfl, _, rfl, _, _, rfl, ?_, _, _, rfl, ?_, rfl⟩
    · have older : Kind.spreadElement.IsWritten "ExperimentalSpreadProperty" :=
        .inr List.mem_cons_self
      refine ⟨_, _, rfl, rfl, older, "argument", [], rfl, ?_, rfl⟩
      exact ⟨_, rfl, _, "Identifier", rfl, rfl, .inl rfl, "name", [], rfl, rfl, rfl⟩
    · refine ⟨_, "Literal", rfl, rfl, .inl rfl, ?_⟩
      refine ⟨"value", _, rfl, .inl ⟨_, rfl, rfl⟩, ?_⟩
      refine ⟨"raw", _, rfl, .inr rfl, ?_⟩
      refine ⟨"regex", _, rfl, ⟨_, rfl, rfl, .inr ⟨rfl, rfl⟩⟩, ?_⟩
      exact ⟨"bigint", [], rfl, .inl rfl, rfl⟩

end TreeQuery
