import TreeQuery.Proofs.Load.Order

/-!
# What values yield

A value is loaded in its canonical form. Here what it yields at a shape is said without that form:
the members of an object are looked up by key, the last of equal keys counting, and the items of a
list are taken one by one. Errors are forgotten, so that a value yields a part or nothing.
-/

namespace TreeQuery

/-! ## Tags and words -/

/-- The kinds that a tag names. -/
def Kind.IsNamed (kind : Kind) (tag : String) : Prop :=
  tag = kind.tag ∨ (tag, kind) ∈ legacyTags

theorem Kind.ofTag?_eq_some_iff {tag : String} {kind : Kind} :
    ofTag? tag = some kind ↔ kind.IsNamed tag := by
  constructor
  · intro found
    rw [ofTag?] at found
    split at found
    · rename_i first
      cases found
      have same := List.find?_some first
      exact .inl (eq_of_beq same).symm
    · obtain ⟨before, after, same, -⟩ := List.lookup_eq_some_iff.mp found
      exact .inr (by simp [same])
  · rintro (rfl | legacy)
    · exact ofTag?_tag kind
    · have table : ∀ entry ∈ legacyTags, ofTag? entry.1 = some entry.2 := by decide +kernel
      exact table _ legacy

theorem Kind.ofTag?_eq_none_iff {tag : String} :
    ofTag? tag = none ↔ ∀ kind : Kind, ¬ kind.IsNamed tag := by
  simp only [Option.eq_none_iff_forall_ne_some, ← ofTag?_eq_some_iff, ne_eq]

theorem Vocabulary.word?_eq_some_iff {vocabulary : Vocabulary} {spelling : String}
    {word : vocabulary.Word} :
    vocabulary.word? spelling = some word ↔ (spelling, word) ∈ vocabulary.spellings := by
  constructor
  · intro found
    obtain ⟨before, after, same, -⟩ := List.lookup_eq_some_iff.mp found
    simp [same]
  · have table : ∀ entry ∈ vocabulary.spellings, vocabulary.word? entry.1 = some entry.2 := by
      cases vocabulary <;> decide
    exact table _

/-! ## Values -/

namespace Json

/-- The part that a value yields at a shape, if it yields one. -/
def part? (shape : Shape) (value : Json) : Option (Part shape) :=
  (value.canonical.reading shape).toOption

/-- The part that a place yields, where a value or nothing stands. -/
def placePart? (shape : Shape) : Option Json → Option (Part shape)
  | some value => value.part? shape
  | none => shape.absent?

/-- Nothing stands in a place, or `null` does. -/
def IsOmitted (place : Option Json) : Prop :=
  place = none ∨ place = some .null

/-- The parts that the members of an object yield. -/
def parts? (members : List (String × Json)) : (slots : List Slot) → Option (Parts slots)
  | [] => some .nil
  | slot :: slots =>
      (placePart? slot.shape (lastMember? slot.field.spelling members)).bind fun part =>
        (parts? members slots).map (.cons part)

/-- The node that the members of an object write. -/
def node? (members : List (String × Json)) : Option Node :=
  ((lastMember? tagKey members).bind fun tag => (readTag tag).toOption).bind fun
    | some kind => (parts? members kind.layout).map (.mk kind)
    | none => some .unsupported

theorem gatherPart_canonicalMembers (members : List (String × Json)) (slot : Slot) :
    gatherPart slot.shape (readingsOf (canonicalMembers members) slot.field.spelling) =
      placePart? slot.shape (lastMember? slot.field.spelling members) := by
  rw [readingsOf, member?_canonicalMembers]
  cases lastMember? slot.field.spelling members <;> rfl

theorem gather_canonicalMembers (members : List (String × Json)) (slots : List Slot) :
    gather slots (readingsOf (canonicalMembers members)) = parts? members slots := by
  induction slots with
  | nil => rfl
  | cons slot slots induction =>
      rw [gather, parts?, induction, gatherPart_canonicalMembers]

/-- The members of an object yield parts if every place yields one. -/
theorem exists_parts?_iff {members : List (String × Json)} {slots : List Slot} :
    (∃ parts, parts? members slots = some parts) ↔
      ∀ slot ∈ slots, ∃ part,
        placePart? slot.shape (lastMember? slot.field.spelling members) = some part := by
  simp only [← gather_canonicalMembers, exists_gather_iff, gatherPart_canonicalMembers]

theorem gatherNode_canonicalMembers (members : List (String × Json)) :
    gatherNode (member? tagKey (canonicalMembers members))
      (readingsOf (canonicalMembers members)) = node? members := by
  have tag : (((lastMember? tagKey members).map canonical).bind fun tag =>
      (readTag tag).toOption) = (lastMember? tagKey members).bind fun tag =>
        (readTag tag).toOption := by
    rw [Option.bind_map]
    simp only [Function.comp_def, toOption_readTag_canonical]
  rw [gatherNode, node?, member?_canonicalMembers, tag]
  refine congrArg (Option.bind _) (funext fun kind => ?_)
  cases kind with
  | none => rfl
  | some kind => exact congrArg (Option.map _) (gather_canonicalMembers members kind.layout)

theorem node?_of_named {members : List (String × Json)} {tag : String} {kind : Kind}
    (tagged : lastMember? tagKey members = some (.string tag)) (named : kind.IsNamed tag) :
    node? members = (parts? members kind.layout).map (.mk kind) := by
  rw [node?, tagged, Option.bind_some, readTag, Kind.ofTag?_eq_some_iff.mpr named]
  rfl

theorem node?_of_unnamed {members : List (String × Json)} {tag : String}
    (tagged : lastMember? tagKey members = some (.string tag))
    (unnamed : ∀ kind : Kind, ¬ kind.IsNamed tag) : node? members = some .unsupported := by
  rw [node?, tagged, Option.bind_some, readTag, Kind.ofTag?_eq_none_iff.mpr unnamed]
  rfl

section Objects

variable (members : List (String × Json))

theorem part?_object_node : (object members).part? .node = (node? members).map .node := by
  rw [part?, canonical, toOption_object_node (sorted_canonicalMembers members).nodup,
    gatherNode_canonicalMembers]

theorem part?_object_optNode :
    (object members).part? .optNode = (node? members).map fun node => .optNode (some node) := by
  rw [part?, canonical, toOption_object_optNode (sorted_canonicalMembers members).nodup,
    gatherNode_canonicalMembers]

theorem part?_object_regex :
    (object members).part? .regex =
      (parts? members Schema.regex.slots).map fun parts => .regex (some (.ofParts parts)) := by
  rw [part?, canonical, toOption_object_regex (sorted_canonicalMembers members).nodup,
    gather_canonicalMembers]

theorem part?_object_chunkText :
    (object members).part? .chunkText =
      (parts? members Schema.chunkText.slots).map fun parts => .chunkText (.ofParts parts) := by
  rw [part?, canonical, toOption_object_chunkText (sorted_canonicalMembers members).nodup,
    gather_canonicalMembers]

theorem part?_object_chunk :
    (object members).part? .chunk =
      (parts? members Schema.chunk.slots).map fun parts => .chunk (.ofParts parts) := by
  rw [part?, canonical, toOption_object_chunk (sorted_canonicalMembers members).nodup,
    gather_canonicalMembers]

end Objects

theorem part?_string_choice (spelling : String) (vocabulary : Vocabulary) :
    (string spelling).part? (.choice vocabulary) = (vocabulary.word? spelling).map .choice := by
  rw [part?, canonical, reading, Reading.string, toOption_bind_pure, readWord]
  cases vocabulary.word? spelling <;> rfl

section Arrays

variable (items : List Json)

theorem toOption_mapM_itemReadings {α : Type} (shape : Shape) (f : Part shape → α) :
    ((itemReadings (canonicalItems items)).mapM fun (reading : Reading) =>
      reading shape >>= fun part => pure (f part)).toOption =
        items.mapM fun item => (item.part? shape).map f := by
  rw [toOption_mapM, itemReadings_eq_map, canonicalItems_eq_map, List.map_map, List.mapM_map]
  simp only [toOption_bind_pure, Function.comp_def]
  rfl

theorem part?_array_nodes :
    (array items).part? .nodes =
      (items.mapM fun (item : Json) => (item.part? .node).map Part.content).map .nodes := by
  rw [part?, canonical, reading, Reading.array, toOption_bind_pure]
  exact congrArg _ (toOption_mapM_itemReadings items .node Part.content)

theorem part?_array_holes :
    (array items).part? .holes =
      (items.mapM fun (item : Json) => (item.part? .optNode).map Part.content).map .holes := by
  rw [part?, canonical, reading, Reading.array, toOption_bind_pure]
  exact congrArg _ (toOption_mapM_itemReadings items .optNode Part.content)

theorem part?_array_chunks :
    (array items).part? .chunks =
      (items.mapM fun (item : Json) => (item.part? .chunk).map Part.content).map .chunks := by
  rw [part?, canonical, reading, Reading.array, toOption_bind_pure]
  exact congrArg _ (toOption_mapM_itemReadings items .chunk Part.content)

end Arrays

theorem outerTag?_canonical_object (members : List (String × Json)) :
    (object members).canonical.outerTag? = (lastMember? tagKey members).map canonical := by
  rw [canonical, outerTag?, member?_canonicalMembers]

end Json

/-- A value is loaded if it yields a node and its outermost tag is no number. -/
theorem Load.ofJson_eq_ok_iff {value : Json} {node : Node} :
    ofJson value = .ok node ↔
      (∀ index, value.canonical.outerTag? ≠ some (.number index)) ∧
        value.part? .node = some (.node node) := by
  have yields : value.canonical.reading.node = .ok node ↔
      value.part? .node = some (.node node) := by
    rw [← toOption_eq_some_iff, Reading.node, toOption_bind_pure, Option.map_eq_some_iff,
      Json.part?]
    constructor
    · rintro ⟨⟨held⟩, found, rfl⟩
      exact found
    · exact fun found => ⟨_, found, rfl⟩
  rw [ofJson, mapError_eq_ok_iff, ← yields, Json.toNode]
  split
  · rename_i index tag
    constructor
    · intro loaded
      cases loaded
    · intro notNumber
      exact absurd tag (notNumber.1 index)
  · rename_i notNumber
    exact (and_iff_right notNumber).symm

end TreeQuery
