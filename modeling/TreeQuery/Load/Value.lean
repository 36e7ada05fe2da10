import TreeQuery.Load.Record

/-!
# Reading nodes from JSON values

A JSON value yields something at every shape: a node where a node is due, a list of nodes where a
list is due, and so on. The reading of a list or an object is built from the readings of its items
or members, so reading is one structural recursion over the value.
-/

namespace TreeQuery

/-- The key of a node's tag. -/
def tagKey : String := "type"

/-- The kind that a tag names; an unknown tag names none. A tag is a string or an index. -/
def readTag : Json → Except Mismatch (Option Kind)
  | .string tag => .ok (Kind.ofTag? tag)
  | .number (.integer (.ofNat index)) => .ok (Kind.ofIndex? index)
  | value => .error (.wrongType (.ofJson value) .tag)

/-- The kind of a node written as an object, which has exactly one tag. -/
def readTagOf (members : List (String × Json)) : Except Mismatch (Option Kind) :=
  match members.filter fun member => member.1 == tagKey with
  | [] => .error (.missing tagKey)
  | [(_, tag)] => readTag tag
  | (_, tag) :: _ => do
      let _ ← readTag tag
      .error (.duplicate tagKey)

/-! ## Records by shape -/

/-- A regular expression from its parts. -/
def Regex.ofParts (parts : Parts Schema.regex.slots) : Regex :=
  let (pattern, flags, _) := parts.row
  ⟨pattern, flags⟩

/-- The forms of a chunk from their parts. -/
def ChunkText.ofParts (parts : Parts Schema.chunkText.slots) : ChunkText :=
  let (raw, cooked, _) := parts.row
  ⟨raw, cooked⟩

/-- A chunk from its parts. -/
def Chunk.ofParts (parts : Parts Schema.chunk.slots) : Chunk :=
  let (text, tail, _) := parts.row
  ⟨text, tail⟩

/-- Where a value of the wrong type stands. -/
def Reading.wrong (value : Json) (shape : Shape) : Except Mismatch (Part shape) :=
  .error (.wrongType (.ofJson value) shape.expected)

/-! ## Scalars -/

/-- What `null` yields. -/
def Reading.null : Reading
  | .optNode => .ok (.optNode none)
  | .optText => .ok (.optText none)
  | .regex => .ok (.regex none)
  | .literal => .ok (.literal .null)
  | shape => Reading.wrong .null shape

/-- What a truth value yields. -/
def Reading.bool (value : Bool) : Reading
  | .flag => .ok (.flag value)
  | .literal => .ok (.literal (.bool value))
  | shape => Reading.wrong (.bool value) shape

/-- What a number yields. -/
def Reading.number (value : Json.Number) : Reading
  | .literal => .ok (.literal (.number value.toDouble))
  | shape => Reading.wrong (.number value) shape

/-- The word with a spelling. -/
def readWord (vocabulary : Vocabulary) (spelling : String) : Except Mismatch vocabulary.Word :=
  match vocabulary.word? spelling with
  | some word => .ok word
  | none => .error (.unknownWord spelling vocabulary)

/-- What a string yields. -/
def Reading.string (value : String) : Reading
  | .text => .ok (.text value)
  | .optText => .ok (.optText (some value))
  | .textOrEmpty => .ok (.textOrEmpty value)
  | .choice vocabulary => return .choice (← readWord vocabulary value)
  | .literal => .ok (.literal (.text value))
  | shape => Reading.wrong (.string value) shape

/-! ## Lists -/

/-- The node that a list writes: its tag and then its parts. -/
def readListNode : List Json → List Reading → Except Mismatch Node
  | tag :: _, _ :: readings => do
      match ← readTag tag with
      | some kind => return .mk kind (← kind.schema.ofItems readings)
      | none => if readings = [] then return .unsupported else .error (.tooLong readings.length 0)
  | _, _ => .error (.missing tagKey)

/-- The node that a reading yields. -/
def Reading.node (reading : Reading) : Except Mismatch Node :=
  return (← reading .node).content

/-- What a list yields, given the readings of its items. -/
def Reading.array (items : List Json) (readings : List Reading) : Reading
  | .node => return .node (← readListNode items readings)
  | .optNode => return .optNode (some (← readListNode items readings))
  | .nodes => return .nodes (← readings.mapM Reading.node)
  | .holes => return .holes (← readings.mapM fun reading => return (← reading .optNode).content)
  | .chunks => return .chunks (← readings.mapM fun reading => return (← reading .chunk).content)
  | .literal => .ok (.literal (.composite (Json.canonical (.array items))))
  | .regex => return .regex (some (.ofParts (← Schema.regex.ofItems readings)))
  | .chunkText => return .chunkText (.ofParts (← Schema.chunkText.ofItems readings))
  | .chunk => return .chunk (.ofParts (← Schema.chunk.ofItems readings))
  | shape => Reading.wrong (.array items) shape

/-! ## Objects -/

/-- The node that an object writes. -/
def readObjectNode (members : List (String × Json)) (readings : List (String × Reading)) :
    Except Mismatch Node := do
  match ← readTagOf members with
  | some kind => return .mk kind (← kind.schema.ofMembers readings)
  | none => return .unsupported

/-- The word that an object names by its only key; the key has no value. -/
def readKeyedWord (vocabulary : Vocabulary) : List (String × Json) →
    Except Mismatch vocabulary.Word
  | [(key, value)] => do
      let word ← readWord vocabulary key
      match value with
      | .null | .object [] => return word
      | value => .error (.wrongType (.ofJson value) .nothing)
  | _ => .error .notSingle

/-- What an object yields, given the readings of its members. -/
def Reading.object (members : List (String × Json)) (readings : List (String × Reading)) : Reading
  | .node => return .node (← readObjectNode members readings)
  | .optNode => return .optNode (some (← readObjectNode members readings))
  | .choice vocabulary => return .choice (← readKeyedWord vocabulary members)
  | .literal => .ok (.literal (.composite (Json.canonical (.object members))))
  | .regex => return .regex (some (.ofParts (← Schema.regex.ofMembers readings)))
  | .chunkText => return .chunkText (.ofParts (← Schema.chunkText.ofMembers readings))
  | .chunk => return .chunk (.ofParts (← Schema.chunk.ofMembers readings))
  | shape => Reading.wrong (.object members) shape

/-! ## Values -/

mutual

/-- What a value yields at every shape. -/
def Json.reading : Json → Reading
  | .null => Reading.null
  | .bool value => Reading.bool value
  | .number value => Reading.number value
  | .string value => Reading.string value
  | .array items => Reading.array items (Json.itemReadings items)
  | .object members => Reading.object members (Json.memberReadings members)

/-- The readings of a list of values. -/
def Json.itemReadings : List Json → List Reading
  | [] => []
  | item :: items => item.reading :: Json.itemReadings items

/-- The readings of a list of members. -/
def Json.memberReadings : List (String × Json) → List (String × Reading)
  | [] => []
  | (key, value) :: members => (key, value.reading) :: Json.memberReadings members

end

/-- The tag of the outermost node, if the value has one. -/
def Json.outerTag? : Json → Option Json
  | .array (tag :: _) => some tag
  | .object members => Json.member? tagKey members
  | _ => none

/-- The node that a value writes. The outermost tag has to be a string; only the nodes inside may
give theirs as an index. -/
def Json.toNode (value : Json) : Except Mismatch Node :=
  match value.outerTag? with
  | some (.number index) => .error (.wrongType (.number index) .tag)
  | _ => value.reading.node

end TreeQuery
