import Mathlib.Logic.Relation
import TreeQuery.Proofs.Load.Value

/-!
# What is accepted

A value is loaded if and only if it fits the grammar. The rules below say what may stand in the
place of a part, by its shape: a required part has to be there, an optional one may be missing or
`null`, and one with a default may be missing but not `null`. They leave out three shortcuts, which
the theorem excludes: a record written as a list, the tag of an inner node written as a number, and
a word written as an object.
-/

namespace TreeQuery.Json

/-! ## The rules -/

mutual

/-- The values that are accepted as nodes. -/
inductive Accepted : Json → Prop where
  /-- Nothing but the tag of a node outside the grammar is looked at. -/
  | unsupported {members : List (String × Json)} {tag : String}
      (tagged : lastMember? tagKey members = some (.string tag))
      (unknown : ∀ kind : Kind, ¬ kind.IsNamed tag) : Accepted (.object members)
  /-- Every part of a node in the grammar has to fit its shape. -/
  | node {members : List (String × Json)} {tag : String} {kind : Kind}
      (tagged : lastMember? tagKey members = some (.string tag)) (named : kind.IsNamed tag)
      (fields : ∀ slot ∈ kind.layout, Fits slot.shape (lastMember? slot.field.spelling members)) :
      Accepted (.object members)

/-- What may stand in the place of a part. -/
inductive Fits : Shape → Option Json → Prop where
  | node {value : Json} (inside : Accepted value) : Fits .node (some value)
  | noNode {place : Option Json} (omitted : IsOmitted place) : Fits .optNode place
  | optNode {value : Json} (inside : Accepted value) : Fits .optNode (some value)
  | noNodes : Fits .nodes none
  | nodes {items : List Json} (inside : ∀ item ∈ items, Accepted item) :
      Fits .nodes (some (.array items))
  | noHoles : Fits .holes none
  | holes {items : List Json} (inside : ∀ item ∈ items, item ≠ .null → Accepted item) :
      Fits .holes (some (.array items))
  | noFlag : Fits .flag none
  | flag (value : Bool) : Fits .flag (some (.bool value))
  | text (value : String) : Fits .text (some (.string value))
  | noText {place : Option Json} (omitted : IsOmitted place) : Fits .optText place
  | optText (value : String) : Fits .optText (some (.string value))
  | emptyText : Fits .textOrEmpty none
  | textOrEmpty (value : String) : Fits .textOrEmpty (some (.string value))
  | noWord {vocabulary : Vocabulary}
      (optional : vocabulary ∈ [Vocabulary.sourceType, .propertyKind, .methodKind]) :
      Fits (.choice vocabulary) none
  | word {vocabulary : Vocabulary} {spelling : String} {word : vocabulary.Word}
      (listed : (spelling, word) ∈ vocabulary.spellings) :
      Fits (.choice vocabulary) (some (.string spelling))
  | literal (place : Option Json) : Fits .literal place
  | noRegex {place : Option Json} (omitted : IsOmitted place) : Fits .regex place
  | regex {members : List (String × Json)} (pattern : Fits .text (lastMember? "pattern" members))
      (flags : Fits .textOrEmpty (lastMember? "flags" members)) :
      Fits .regex (some (.object members))
  | chunkText {members : List (String × Json)} (raw : Fits .text (lastMember? "raw" members))
      (cooked : Fits .optText (lastMember? "cooked" members)) :
      Fits .chunkText (some (.object members))
  | chunk {members : List (String × Json)} (text : Fits .chunkText (lastMember? "value" members))
      (tail : Fits .flag (lastMember? "tail" members)) : Fits .chunk (some (.object members))
  | noChunks : Fits .chunks none
  | chunks {items : List Json} (inside : ∀ item ∈ items, Fits .chunk (some item)) :
      Fits .chunks (some (.array items))

end

/-! ## Shortcuts -/

/-- A value that is expected to have some shape directly holds another one. -/
inductive Inside : Json × Shape → Json × Shape → Prop where
  | field {members : List (String × Json)} {shape : Shape} {tag : String} {kind : Kind}
      {slot : Slot} {value : Json} (isNode : shape ∈ [Shape.node, .optNode])
      (tagged : lastMember? tagKey members = some (.string tag)) (named : kind.IsNamed tag)
      (listed : slot ∈ kind.layout)
      (found : lastMember? slot.field.spelling members = some value) :
      Inside (.object members, shape) (value, slot.shape)
  | node {items : List Json} {item : Json} (present : item ∈ items) :
      Inside (.array items, .nodes) (item, .node)
  | hole {items : List Json} {item : Json} (present : item ∈ items) :
      Inside (.array items, .holes) (item, .optNode)
  | chunk {items : List Json} {item : Json} (present : item ∈ items) :
      Inside (.array items, .chunks) (item, .chunk)
  | chunkText {members : List (String × Json)} {value : Json}
      (found : lastMember? "value" members = some value) :
      Inside (.object members, .chunk) (value, .chunkText)

/-- No shortcut is taken where a value is expected to have some shape. -/
structure NoShortcut (place : Json × Shape) : Prop where
  /-- No record is written as a list. -/
  notList : ∀ items, place.1 = .array items →
    place.2 ∉ [Shape.node, .optNode, .regex, .chunk, .chunkText]
  /-- The tag of a node is not an index. -/
  notIndex : ∀ members index, place.1 = .object members → place.2 ∈ [Shape.node, .optNode] →
    lastMember? tagKey members ≠ some (.number (.integer index))
  /-- No word is written as an object. -/
  notKeyed : ∀ members vocabulary, place ≠ (.object members, .choice vocabulary)

/-- A document takes no shortcut: it is not a list itself, and none is taken inside it. -/
structure IsPlain (root : Json) : Prop where
  notList : ∀ items, root ≠ .array items
  inside : ∀ place, Relation.TransGen Inside (root, .node) place → NoShortcut place

/-- No shortcut is taken in a place or inside it. -/
def IsPlainAt (value : Json) (shape : Shape) : Prop :=
  ∀ place, Relation.ReflTransGen Inside (value, shape) place → NoShortcut place

theorem IsPlainAt.inside {value inner : Json} {shape innerShape : Shape}
    (plain : IsPlainAt value shape) (step : Inside (value, shape) (inner, innerShape)) :
    IsPlainAt inner innerShape :=
  fun place reach => plain place (.head step reach)

theorem IsPlainAt.here {value : Json} {shape : Shape} (plain : IsPlainAt value shape) :
    NoShortcut (value, shape) :=
  plain _ .refl

theorem IsPlain.isPlainAt {root inner : Json} {shape : Shape} (plain : root.IsPlain)
    (step : Inside (root, .node) (inner, shape)) : IsPlainAt inner shape :=
  fun place reach => plain.inside place (.head' step reach)

/-! ## Acceptance by shape -/

/-- A value yields a part of a shape if and only if it fits the shape. -/
abbrev IsFaithful (value : Json) (shape : Shape) : Prop :=
  (∃ part, value.part? shape = some part) ↔ Fits shape (some value)

/-- A missing member stands for a part exactly where the rules let it be missing. -/
theorem exists_absent?_iff {shape : Shape} :
    (∃ part, shape.absent? = some part) ↔ Fits shape none := by
  cases shape with
  | optNode => exact ⟨fun _ => .noNode (.inl rfl), fun _ => ⟨_, rfl⟩⟩
  | nodes => exact ⟨fun _ => .noNodes, fun _ => ⟨_, rfl⟩⟩
  | holes => exact ⟨fun _ => .noHoles, fun _ => ⟨_, rfl⟩⟩
  | flag => exact ⟨fun _ => .noFlag, fun _ => ⟨_, rfl⟩⟩
  | optText => exact ⟨fun _ => .noText (.inl rfl), fun _ => ⟨_, rfl⟩⟩
  | textOrEmpty => exact ⟨fun _ => .emptyText, fun _ => ⟨_, rfl⟩⟩
  | choice vocabulary =>
      cases vocabulary with
      | sourceType | propertyKind | methodKind =>
          exact ⟨fun _ => .noWord (by simp), fun _ => ⟨_, rfl⟩⟩
      | _ => exact ⟨nofun, fun | .noWord optional => by simp at optional⟩
  | literal => exact ⟨fun _ => .literal none, fun _ => ⟨_, rfl⟩⟩
  | regex => exact ⟨fun _ => .noRegex (.inl rfl), fun _ => ⟨_, rfl⟩⟩
  | chunks => exact ⟨fun _ => .noChunks, fun _ => ⟨_, rfl⟩⟩
  | node | text | chunkText | chunk => exact ⟨nofun, nofun⟩

theorem exists_map_eq_some_iff {α β : Type} {result : Option α} {f : α → β} :
    (∃ image, result.map f = some image) ↔ ∃ value, result = some value := by
  cases result <;> simp

theorem not_isOmitted {value : Json} (notNull : value ≠ .null) : ¬ IsOmitted (some value) := by
  rintro (absent | null)
  · cases absent
  · exact notNull (Option.some.inj null)

theorem exists_placePart?_iff {shape : Shape} {place : Option Json}
    (held : ∀ value, place = some value → value.IsFaithful shape) :
    (∃ part, placePart? shape place = some part) ↔ Fits shape place := by
  cases place with
  | none => exact exists_absent?_iff
  | some value => exact held value rfl

section Leaves

variable {value : Json}

theorem isFaithful_flag : value.IsFaithful .flag := by
  cases value with
  | bool value => exact ⟨fun _ => .flag value, fun _ => ⟨_, rfl⟩⟩
  | _ => exact ⟨nofun, nofun⟩

theorem isFaithful_text : value.IsFaithful .text := by
  cases value with
  | string value => exact ⟨fun _ => .text value, fun _ => ⟨_, rfl⟩⟩
  | _ => exact ⟨nofun, nofun⟩

theorem isFaithful_textOrEmpty : value.IsFaithful .textOrEmpty := by
  cases value with
  | string value => exact ⟨fun _ => .textOrEmpty value, fun _ => ⟨_, rfl⟩⟩
  | _ => exact ⟨nofun, nofun⟩

theorem isFaithful_optText : value.IsFaithful .optText := by
  cases value with
  | null => exact ⟨fun _ => .noText (.inr rfl), fun _ => ⟨_, rfl⟩⟩
  | string value => exact ⟨fun _ => .optText value, fun _ => ⟨_, rfl⟩⟩
  | _ => exact ⟨nofun, fun | .noText omitted => absurd omitted (not_isOmitted nofun)⟩

/-- A word that is not written as an object has to be spelled as its vocabulary has it. -/
theorem isFaithful_choice {vocabulary : Vocabulary}
    (notKeyed : ∀ members, value ≠ .object members) : value.IsFaithful (.choice vocabulary) := by
  cases value with
  | string spelling =>
      rw [IsFaithful, part?_string_choice, exists_map_eq_some_iff]
      constructor
      · rintro ⟨word, found⟩
        exact .word (Vocabulary.word?_eq_some_iff.mp found)
      · intro fits
        cases fits with
        | word listed => exact ⟨_, Vocabulary.word?_eq_some_iff.mpr listed⟩
  | object members => exact absurd rfl (notKeyed members)
  | _ => exact ⟨nofun, nofun⟩

end Leaves

section Records

variable {members : List (String × Json)}

theorem exists_parts?_iff_fits {slots : List Slot}
    (held : ∀ slot ∈ slots, ∀ value, lastMember? slot.field.spelling members = some value →
      value.IsFaithful slot.shape) :
    (∃ parts, parts? members slots = some parts) ↔
      ∀ slot ∈ slots, Fits slot.shape (lastMember? slot.field.spelling members) := by
  rw [exists_parts?_iff]
  exact forall₂_congr fun slot listed => exists_placePart?_iff (held slot listed)

theorem exists_two_parts?_iff {first second : Slot}
    (heldFirst : ∀ value, lastMember? first.field.spelling members = some value →
      value.IsFaithful first.shape)
    (heldSecond : ∀ value, lastMember? second.field.spelling members = some value →
      value.IsFaithful second.shape) :
    (∃ parts, parts? members [first, second] = some parts) ↔
      Fits first.shape (lastMember? first.field.spelling members) ∧
        Fits second.shape (lastMember? second.field.spelling members) := by
  rw [exists_parts?_iff_fits, List.forall_mem_cons, List.forall_mem_singleton]
  exact List.forall_mem_cons.mpr ⟨heldFirst, List.forall_mem_singleton.mpr heldSecond⟩

theorem isFaithful_regex : (object members).IsFaithful .regex := by
  rw [IsFaithful, part?_object_regex, exists_map_eq_some_iff]
  refine (exists_two_parts?_iff (fun _ _ => isFaithful_text) fun _ _ =>
    isFaithful_textOrEmpty).trans
      ⟨fun ⟨pattern, flags⟩ => .regex pattern flags, fun fits => ?_⟩
  cases fits with
  | noRegex omitted => exact absurd omitted (not_isOmitted nofun)
  | regex pattern flags => exact ⟨pattern, flags⟩

theorem isFaithful_chunkText : (object members).IsFaithful .chunkText := by
  rw [IsFaithful, part?_object_chunkText, exists_map_eq_some_iff]
  exact (exists_two_parts?_iff (fun _ _ => isFaithful_text) fun _ _ =>
    isFaithful_optText).trans
      ⟨fun ⟨raw, cooked⟩ => .chunkText raw cooked, fun | .chunkText raw cooked => ⟨raw, cooked⟩⟩

theorem isFaithful_chunk
    (text : ∀ value, lastMember? "value" members = some value → value.IsFaithful .chunkText) :
    (object members).IsFaithful .chunk := by
  rw [IsFaithful, part?_object_chunk, exists_map_eq_some_iff]
  exact (@exists_two_parts?_iff members ⟨.value, .chunkText⟩ ⟨.tail, .flag⟩ text fun _ _ =>
    isFaithful_flag).trans
      ⟨fun ⟨text, tail⟩ => .chunk text tail, fun | .chunk text tail => ⟨text, tail⟩⟩

theorem exists_string_tag {node : Node}
    (notIndex : ∀ index, lastMember? tagKey members ≠ some (.number (.integer index)))
    (found : node? members = some node) :
    ∃ tag, lastMember? tagKey members = some (.string tag) := by
  obtain ⟨kind, named, -⟩ := Option.bind_eq_some_iff.mp found
  obtain ⟨tag, tagged, named⟩ := Option.bind_eq_some_iff.mp named
  match tag with
  | .string tag => exact ⟨tag, tagged⟩
  | .number (.integer index) => exact absurd tagged (notIndex index)
  | .null | .bool _ | .number (.double _) | .array _ | .object _ => cases named

/-- The members of an object write a node if the object is accepted, unless its tag is an index. -/
theorem exists_node?_iff
    (notIndex : ∀ index, lastMember? tagKey members ≠ some (.number (.integer index)))
    (held : ∀ (tag : String) (kind : Kind), lastMember? tagKey members = some (.string tag) →
      kind.IsNamed tag → ∀ slot ∈ kind.layout, ∀ value,
        lastMember? slot.field.spelling members = some value → value.IsFaithful slot.shape) :
    (∃ node, node? members = some node) ↔ Accepted (.object members) := by
  constructor
  · rintro ⟨node, found⟩
    obtain ⟨tag, tagged⟩ := exists_string_tag notIndex found
    by_cases known : ∃ kind : Kind, kind.IsNamed tag
    · obtain ⟨kind, named⟩ := known
      rw [node?_of_named tagged named] at found
      have parts := exists_map_eq_some_iff.mp ⟨node, found⟩
      exact .node tagged named ((exists_parts?_iff_fits (held tag kind tagged named)).mp parts)
    · exact .unsupported tagged (not_exists.mp known)
  · intro accepted
    cases accepted with
    | unsupported tagged unknown => exact ⟨_, node?_of_unnamed tagged unknown⟩
    | @node _ tag kind tagged named fields =>
        rw [node?_of_named tagged named, exists_map_eq_some_iff]
        exact (exists_parts?_iff_fits (held tag kind tagged named)).mpr fields

end Records

section Lists

variable {items : List Json}

theorem exists_mapM_iff {α : Type} {f : Json → Option α} :
    (∃ values, items.mapM f = some values) ↔ ∀ item ∈ items, ∃ value, f item = some value := by
  induction items with
  | nil => simp
  | cons item items induction =>
      rw [List.forall_mem_cons, ← induction, List.mapM_cons]
      cases f item <;> cases items.mapM f <;> simp

theorem isFaithful_nodes (held : ∀ item ∈ items, item.IsFaithful .node) :
    (array items).IsFaithful .nodes := by
  rw [IsFaithful, part?_array_nodes, exists_map_eq_some_iff, exists_mapM_iff]
  simp only [exists_map_eq_some_iff]
  constructor
  · intro yield
    refine .nodes fun item present => ?_
    cases (held item present).mp (yield item present) with
    | node accepted => exact accepted
  · intro fits
    cases fits with
    | nodes inside =>
        exact fun item present => (held item present).mpr (.node (inside item present))

theorem isFaithful_holes (held : ∀ item ∈ items, item.IsFaithful .optNode) :
    (array items).IsFaithful .holes := by
  rw [IsFaithful, part?_array_holes, exists_map_eq_some_iff, exists_mapM_iff]
  simp only [exists_map_eq_some_iff]
  constructor
  · intro yield
    refine .holes fun item present notNull => ?_
    cases (held item present).mp (yield item present) with
    | noNode omitted => exact absurd omitted (not_isOmitted notNull)
    | optNode accepted => exact accepted
  · intro fits
    cases fits with
    | holes inside =>
        intro item present
        refine (held item present).mpr ?_
        by_cases null : item = .null
        · exact .noNode (.inr (congrArg some null))
        · exact .optNode (inside item present null)

theorem isFaithful_chunks (held : ∀ item ∈ items, item.IsFaithful .chunk) :
    (array items).IsFaithful .chunks := by
  rw [IsFaithful, part?_array_chunks, exists_map_eq_some_iff, exists_mapM_iff]
  simp only [exists_map_eq_some_iff]
  constructor
  · exact fun yield => .chunks fun item present => (held item present).mp (yield item present)
  · intro fits
    cases fits with
    | chunks inside => exact fun item present => (held item present).mpr (inside item present)

end Lists

/-! ## Acceptance of a whole value -/

/-- If what a value directly holds yields parts exactly where it fits, so does the value. -/
theorem isFaithful_of_inside {value : Json} {shape : Shape} (plain : NoShortcut (value, shape))
    (held : ∀ inner innerShape, Inside (value, shape) (inner, innerShape) →
      inner.IsFaithful innerShape) :
    value.IsFaithful shape := by
  -- Shortcuts matter only where the shape and the form of the value meet; the rest is immediate.
  have notList : ∀ items, value = .array items →
      shape ∉ [Shape.node, .optNode, .regex, .chunk, .chunkText] := plain.notList
  have node : ∀ members, value = .object members → shape ∈ [Shape.node, .optNode] →
      ((∃ node, node? members = some node) ↔ Accepted (.object members)) := by
    rintro members rfl isNode
    refine exists_node?_iff (fun index => plain.notIndex members index rfl isNode) ?_
    exact fun tag kind tagged named slot listed inner found =>
      held inner slot.shape (.field isNode tagged named listed found)
  cases shape with
  | node =>
      cases value with
      | object members =>
          rw [IsFaithful, part?_object_node, exists_map_eq_some_iff, node members rfl (by simp)]
          exact ⟨.node, fun | .node accepted => accepted⟩
      | array items => exact absurd (by simp) (notList items rfl)
      | _ => exact ⟨nofun, fun | .node accepted => nomatch accepted⟩
  | optNode =>
      cases value with
      | null => exact ⟨fun _ => .noNode (.inr rfl), fun _ => ⟨_, rfl⟩⟩
      | object members =>
          rw [IsFaithful, part?_object_optNode, exists_map_eq_some_iff, node members rfl (by simp)]
          refine ⟨.optNode, fun fits => ?_⟩
          cases fits with
          | noNode omitted => exact absurd omitted (not_isOmitted nofun)
          | optNode accepted => exact accepted
      | array items => exact absurd (by simp) (notList items rfl)
      | _ =>
          refine ⟨nofun, fun fits => ?_⟩
          cases fits with
          | noNode omitted => exact absurd omitted (not_isOmitted nofun)
          | optNode accepted => cases accepted
  | nodes =>
      cases value with
      | array items => exact isFaithful_nodes fun item present => held item _ (.node present)
      | _ => exact ⟨nofun, nofun⟩
  | holes =>
      cases value with
      | array items => exact isFaithful_holes fun item present => held item _ (.hole present)
      | _ => exact ⟨nofun, nofun⟩
  | flag => exact isFaithful_flag
  | text => exact isFaithful_text
  | optText => exact isFaithful_optText
  | textOrEmpty => exact isFaithful_textOrEmpty
  | choice vocabulary =>
      refine isFaithful_choice fun members same => ?_
      exact plain.notKeyed members vocabulary (congrArg (·, Shape.choice vocabulary) same)
  | literal => exact ⟨fun _ => .literal _, fun _ => by cases value <;> exact ⟨_, rfl⟩⟩
  | regex =>
      cases value with
      | null => exact ⟨fun _ => .noRegex (.inr rfl), fun _ => ⟨_, rfl⟩⟩
      | object members => exact isFaithful_regex
      | array items => exact absurd (by simp) (notList items rfl)
      | _ => exact ⟨nofun, fun | .noRegex omitted => absurd omitted (not_isOmitted nofun)⟩
  | chunkText =>
      cases value with
      | object members => exact isFaithful_chunkText
      | array items => exact absurd (by simp) (notList items rfl)
      | _ => exact ⟨nofun, nofun⟩
  | chunk =>
      cases value with
      | object members =>
          exact isFaithful_chunk fun inner found => held inner _ (.chunkText found)
      | array items => exact absurd (by simp) (notList items rfl)
      | _ => exact ⟨nofun, nofun⟩
  | chunks =>
      cases value with
      | array items =>
          exact isFaithful_chunks fun item present => held item _ (.chunk present)
      | _ => exact ⟨nofun, nofun⟩

/-- Where no shortcut is taken, a value yields a part at exactly the shapes that it fits. -/
theorem isFaithful_of_isPlainAt (value : Json) : ∀ shape, IsPlainAt value shape →
    value.IsFaithful shape := by
  induction value using induction_on_values with
  | array items induction =>
      intro shape plain
      refine isFaithful_of_inside plain.here fun inner innerShape step => ?_
      have innerPlain := plain.inside step
      cases step with
      | node present | hole present | chunk present => exact induction inner present _ innerPlain
  | object members induction =>
      intro shape plain
      refine isFaithful_of_inside plain.here fun inner innerShape step => ?_
      have innerPlain := plain.inside step
      cases step with
      | field _ _ _ _ found | chunkText found =>
          exact induction _ (mem_of_lastMember?_eq_some found) _ innerPlain
  | _ => exact fun shape plain => isFaithful_of_inside plain.here nofun

theorem exists_ofJson_iff_accepted {value : Json} (plain : value.IsPlain) :
    (∃ node, Load.ofJson value = .ok node) ↔ value.Accepted := by
  simp only [Load.ofJson_eq_ok_iff, exists_and_left]
  cases value with
  | array items => exact absurd rfl (plain.notList items)
  | object members =>
      have node (notIndex : ∀ index, lastMember? tagKey members ≠ some (.number (.integer index))) :
          (∃ node, node? members = some node) ↔ Accepted (.object members) :=
        exists_node?_iff notIndex fun tag kind tagged named slot listed inner found =>
          isFaithful_of_isPlainAt inner slot.shape
            (plain.isPlainAt (.field (by simp) tagged named listed found))
      rw [outerTag?_canonical_object]
      -- The outermost tag may be an index, which is refused on one side and no string on the other.
      constructor
      · rintro ⟨notNumber, loaded, found⟩
        refine (node fun index tagged => notNumber _ (by rw [tagged]; rfl)).mp ?_
        rw [part?_object_node] at found
        exact exists_map_eq_some_iff.mp ⟨_, found⟩
      · intro accepted
        obtain ⟨tag, tagged⟩ : ∃ tag, lastMember? tagKey members = some (.string tag) := by
          cases accepted with
          | unsupported tagged | node tagged => exact ⟨_, tagged⟩
        obtain ⟨loaded, found⟩ := (node fun index same => by
          rw [tagged] at same
          cases same).mpr accepted
        rw [tagged, part?_object_node, found]
        refine ⟨fun index same => ?_, loaded, rfl⟩
        cases same
  | _ => exact ⟨nofun, nofun⟩

end TreeQuery.Json

namespace TreeQuery

/-- Only the elements of an array have holes, and only operators and the kind of a declaration of
variables cannot be left out. -/
theorem Kind.holes_and_words {kind : Kind} {slot : Slot} (listed : slot ∈ kind.layout) :
    (slot.shape = .holes ↔ slot.field = .elements ∧ kind ∈ [arrayExpression, arrayPattern]) ∧
      ∀ vocabulary, slot.shape = .choice vocabulary →
        (vocabulary ∈ [Vocabulary.sourceType, .propertyKind, .methodKind] ↔
          slot.field ≠ .operator ∧ kind ≠ .variableDeclaration) := by
  cases kind <;> simp [layout] at listed <;> grind

theorem Kind.eq_of_isNamed {kind other : Kind} {tag : String} (named : kind.IsNamed tag)
    (otherNamed : other.IsNamed tag) : kind = other :=
  Option.some.inj ((ofTag?_eq_some_iff.mpr named).symm.trans (ofTag?_eq_some_iff.mpr otherNamed))

namespace Load

/-- A value that takes no shortcut is loaded if and only if the grammar accepts it. Of the places
that the rules speak of, the lists with holes are the elements of arrays, and the words that may not
be missing are the operators and the kind of a declaration of variables. -/
theorem accepts_exactly_grammar {value : Json} (plain : value.IsPlain) :
    ((∃ node, ofJson value = .ok node) ↔ value.Accepted) ∧
    ∀ (kind : Kind), ∀ slot ∈ kind.layout,
      (slot.shape = .holes ↔
        slot.field = .elements ∧ kind ∈ [Kind.arrayExpression, .arrayPattern]) ∧
      ∀ vocabulary, slot.shape = .choice vocabulary →
        (vocabulary ∈ [Vocabulary.sourceType, .propertyKind, .methodKind] ↔
          slot.field ≠ .operator ∧ kind ≠ .variableDeclaration) :=
  ⟨Json.exists_ofJson_iff_accepted plain, fun _ _ => Kind.holes_and_words⟩

/-- A spread element takes no shortcut if its argument holds nothing and takes none. -/
theorem isPlain_spread {argument : Json} (here : Json.NoShortcut (argument, .node))
    (empty : ∀ place, ¬ Json.Inside (argument, .node) place) :
    Json.IsPlain (.object [("type", .string "SpreadElement"), ("argument", argument)]) := by
  refine ⟨nofun, fun place reach => ?_⟩
  obtain ⟨first, step, rest⟩ := Relation.TransGen.head'_iff.mp reach
  have atArgument : first = (argument, .node) := by
    cases step with
    | field _ tagged named listed found =>
        cases tagged
        obtain rfl := Kind.eq_of_isNamed named (.inl rfl : Kind.spreadElement.IsNamed _)
        obtain rfl := List.mem_singleton.mp listed
        cases found
        rfl
  rcases rest.cases_head with rfl | ⟨second, step, -⟩
  · exact atArgument ▸ here
  · exact absurd (atArgument ▸ step) (empty second)

theorem accepts_spread_of_super :
    (∃ node, ofJson (.object [("type", .string "SpreadElement"),
      ("argument", .object [("type", .string "Super")])]) = .ok node) ∧
    ¬ ∃ node, ofJson (.object [("type", .string "SpreadElement"), ("argument", .null)]) =
      .ok node := by
  have super : Json.IsPlain (.object [("type", .string "SpreadElement"),
      ("argument", .object [("type", .string "Super")])]) := by
    refine isPlain_spread ⟨nofun, ?_, nofun⟩ fun place step => ?_
    · rintro members index same - tagged
      cases same
      cases tagged
    · cases step with
      | field _ tagged named listed _ =>
          cases tagged
          obtain rfl := Kind.eq_of_isNamed named (.inl rfl : Kind.super.IsNamed _)
          cases listed
  have null : Json.IsPlain (.object [("type", .string "SpreadElement"), ("argument", .null)]) :=
    isPlain_spread ⟨nofun, nofun, nofun⟩ nofun
  constructor
  · refine (accepts_exactly_grammar super).1.mpr ?_
    refine .node rfl (.inl rfl : Kind.spreadElement.IsNamed _) (List.forall_mem_singleton.mpr ?_)
    exact .node (.node rfl (.inl rfl : Kind.super.IsNamed _) (List.forall_mem_nil _))
  · rw [(accepts_exactly_grammar null).1]
    intro accepted
    cases accepted with
    | unsupported tagged unknown =>
        cases tagged
        exact unknown .spreadElement (.inl rfl)
    | node tagged named fields =>
        cases tagged
        obtain rfl := Kind.eq_of_isNamed named (.inl rfl : Kind.spreadElement.IsNamed _)
        have argument : Json.Fits .node (some .null) :=
          fields ⟨.argument, .node⟩ List.mem_cons_self
        cases argument with
        | node inside => cases inside

end Load

end TreeQuery
