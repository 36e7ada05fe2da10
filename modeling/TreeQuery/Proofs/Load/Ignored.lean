import Mathlib.Data.List.Sort
import TreeQuery.Command.Run
import TreeQuery.Proofs.Load.Value

/-!
# What loading ignores

A record takes the members that its slots name and skips all others; a node outside the grammar has
no slots at all. So two values that agree on what the slots name, at every depth, load alike: they
give the same node, or they fail with the same error. For the error it matters that members are
taken in the order of their keys, which members that are skipped do not change.
-/

namespace TreeQuery

/-! ## Members that name no slot -/

/-- The members whose keys name slots. -/
def namedMembers (slots : List Slot) (members : List (String × Reading)) :
    List (String × Reading) :=
  members.filter fun member => member.1 ∈ slotKeys slots

namespace Draft

variable {slots : List Slot} {key : String}

/-- A key that names no slot is ignored. -/
theorem put_of_notMem {reading : Reading} (draft : Draft slots) (foreign : key ∉ slotKeys slots) :
    draft.put key reading = .ok draft := by
  induction slots with
  | nil => rfl
  | cons slot slots induction =>
      obtain ⟨held, rest⟩ := draft
      obtain ⟨different, foreign⟩ := not_or.mp (List.mem_cons.not.mp foreign)
      rw [put_unnamed (Ne.symm different), induction rest foreign]
      rfl

/-- A slot takes what its member yields at its own shape. -/
theorem put_congr {reading other : Reading} (draft : Draft slots)
    (same : ∀ slot ∈ slots, slot.field.spelling = key → reading slot.shape = other slot.shape) :
    draft.put key reading = draft.put key other := by
  induction slots with
  | nil => rfl
  | cons slot slots induction =>
      obtain ⟨held, rest⟩ := draft
      by_cases named : slot.field.spelling = key
      · cases held with
        | none => rw [put_named named, put_named named, same slot List.mem_cons_self named]
        | some part => exact (if_pos named).trans (if_pos named).symm
      · rw [put_unnamed named, put_unnamed named,
          induction rest fun slot listed => same slot (List.mem_cons_of_mem _ listed)]

theorem putAll_namedMembers (draft : Draft slots) (members : List (String × Reading)) :
    draft.putAll (namedMembers slots members) = draft.putAll members := by
  rw [namedMembers]
  induction members generalizing draft with
  | nil => rfl
  | cons member members induction =>
      by_cases known : member.1 ∈ slotKeys slots
      · rw [List.filter_cons_of_pos (by simpa using known), putAll, putAll]
        exact congrArg _ (funext induction)
      · rw [List.filter_cons_of_neg (by simpa using known), induction, putAll,
          put_of_notMem draft known]
        rfl

end Draft

/-! ## Members that yield the same -/

/-- Members yield the same for every slot. -/
def YieldAlike (slots : List Slot) (members others : List (String × Reading)) : Prop :=
  ∀ slot ∈ slots, (members.lookup slot.field.spelling).map (fun reading => reading slot.shape) =
    (others.lookup slot.field.spelling).map fun reading => reading slot.shape

theorem lookup_namedMembers {slots : List Slot} {key : String} (known : key ∈ slotKeys slots)
    (members : List (String × Reading)) :
    (namedMembers slots members).lookup key = members.lookup key := by
  rw [namedMembers]
  induction members with
  | nil => rfl
  | cons member members induction =>
      obtain ⟨other, reading⟩ := member
      by_cases listed : other ∈ slotKeys slots
      · rw [List.filter_cons_of_pos (by simpa using listed), List.lookup_cons, List.lookup_cons,
          induction]
      · have different : (key == other) = false := by
          rw [beq_eq_false_iff_ne]
          rintro rfl
          exact listed known
        rw [List.filter_cons_of_neg (by simpa using listed), List.lookup_cons, different, induction]

theorem mem_keys_namedMembers {slots : List Slot} {key : String}
    {members : List (String × Reading)} :
    key ∈ (namedMembers slots members).map Prod.fst ↔
      key ∈ slotKeys slots ∧ key ∈ members.map Prod.fst := by
  simp [namedMembers, and_comm]

theorem isSome_lookup_iff {key : String} {members : List (String × Reading)} :
    (members.lookup key).isSome ↔ key ∈ members.map Prod.fst := by
  rw [List.lookup_isSome_iff]
  simp

theorem lookup_eq_none {key : String} {members : List (String × Reading)}
    (fresh : key ∉ members.map Prod.fst) : members.lookup key = none := by
  rwa [← Option.not_isSome_iff_eq_none, isSome_lookup_iff]

namespace YieldAlike

variable {slots : List Slot} {members others : List (String × Reading)}

/-- The same slots are named. -/
theorem mem_keys_iff (alike : YieldAlike slots members others) {key : String}
    (known : key ∈ slotKeys slots) : key ∈ members.map Prod.fst ↔ key ∈ others.map Prod.fst := by
  obtain ⟨slot, listed, rfl⟩ := List.mem_map.mp known
  have sameSome := congrArg Option.isSome (alike slot listed)
  rw [Option.isSome_map, Option.isSome_map] at sameSome
  rw [← isSome_lookup_iff, ← isSome_lookup_iff, sameSome]

theorem keys_eq (alike : YieldAlike slots members others)
    (sorted : (members.map Prod.fst).Pairwise (· < ·))
    (otherSorted : (others.map Prod.fst).Pairwise (· < ·)) :
    (namedMembers slots members).map Prod.fst = (namedMembers slots others).map Prod.fst := by
  have sublist (members : List (String × Reading)) :
      ((namedMembers slots members).map Prod.fst).Sublist (members.map Prod.fst) :=
    List.filter_sublist.map Prod.fst
  refine (sorted.sublist (sublist members)).eq_of_mem_iff (otherSorted.sublist (sublist others)) ?_
  intro key
  rw [mem_keys_namedMembers, mem_keys_namedMembers]
  exact and_congr_right alike.mem_keys_iff

/-- Members with the same keys in the same order fill a draft alike. -/
theorem putAll_eq (alike : YieldAlike slots members others)
    (sameKeys : members.map Prod.fst = others.map Prod.fst)
    (distinct : (members.map Prod.fst).Nodup) (draft : Draft slots) :
    draft.putAll members = draft.putAll others := by
  induction members generalizing others draft with
  | nil => rw [List.map_eq_nil_iff.mp sameKeys.symm]
  | cons member members induction =>
      obtain ⟨⟨key, otherReading⟩, others, rfl, sameKey, tails⟩ :=
        List.map_eq_cons_iff.mp sameKeys.symm
      obtain ⟨key, reading⟩ := member
      cases sameKey
      obtain ⟨fresh, distinct⟩ := List.nodup_cons.mp distinct
      have here : draft.put key reading = draft.put key otherReading := by
        apply Draft.put_congr
        intro slot listed named
        simpa [named] using alike slot listed
      have below : YieldAlike slots members others := by
        intro slot listed
        by_cases named : slot.field.spelling = key
        · rw [named, lookup_eq_none fresh, lookup_eq_none (tails ▸ fresh)]
        · simpa [List.lookup_cons, beq_eq_false_iff_ne.mpr named] using alike slot listed
      rw [Draft.putAll, Draft.putAll, here]
      exact congrArg _ (funext (induction below tails.symm distinct))

/-- Sorted members that yield the same for every slot make the same record, or fail alike. -/
theorem ofMembers_eq {schema : Schema} (alike : YieldAlike schema.slots members others)
    (sorted : (members.map Prod.fst).Pairwise (· < ·))
    (otherSorted : (others.map Prod.fst).Pairwise (· < ·)) :
    schema.ofMembers members = schema.ofMembers others := by
  have sameKeys := alike.keys_eq sorted otherSorted
  have distinct : ((namedMembers schema.slots members).map Prod.fst).Nodup :=
    (sorted.sublist (List.filter_sublist.map Prod.fst)).nodup
  have named : YieldAlike schema.slots (namedMembers schema.slots members)
      (namedMembers schema.slots others) := by
    intro slot listed
    have known : slot.field.spelling ∈ slotKeys schema.slots := List.mem_map_of_mem listed
    rw [lookup_namedMembers known, lookup_namedMembers known]
    exact alike slot listed
  rw [Schema.ofMembers, Schema.ofMembers, ← Draft.putAll_namedMembers,
    ← Draft.putAll_namedMembers _ others]
  exact congrArg (· >>= Draft.finish) (named.putAll_eq sameKeys distinct _)

end YieldAlike

/-! ## Values that agree -/

/-- The record that a shape calls for. -/
def Shape.record? : Shape → Option Schema
  | .regex => some .regex
  | .chunkText => some .chunkText
  | .chunk => some .chunk
  | _ => none

/-- The shape of the items of a list. -/
def Shape.item? : Shape → Option Shape
  | .nodes => some .node
  | .holes => some .optNode
  | .chunks => some .chunk
  | _ => none

namespace Json

/-- A tag names a kind, by its name or by its index, or it is a name outside the grammar. -/
inductive Names : Json → Option Kind → Prop where
  | name {tag : String} {kind : Kind} (named : kind.IsNamed tag) : Names (.string tag) (some kind)
  | index {index : Nat} {kind : Kind} (named : Kind.ofIndex? index = some kind) :
      Names (.number (.integer index)) (some kind)
  | unknown {tag : String} (unknown : ∀ kind : Kind, ¬ kind.IsNamed tag) : Names (.string tag) none

mutual

/-- Places where a shape is due agree on all that is ever looked at: the values in them are equal
but for members that no slot names. -/
inductive AgreeAt : Shape → Option Json → Option Json → Prop where
  | same (shape : Shape) (place : Option Json) : AgreeAt shape place place
  /-- Of a node in the grammar, every member is free that is neither its tag nor named by a slot. -/
  | node {shape : Shape} {members others : List (String × Json)} {tag : Json} {kind : Kind}
      (isNode : shape ∈ [Shape.node, .optNode])
      (tagged : lastMember? tagKey members = some tag)
      (otherTagged : lastMember? tagKey others = some tag) (names : tag.Names (some kind))
      (fields : ∀ slot ∈ kind.layout, AgreeAt slot.shape (lastMember? slot.field.spelling members)
        (lastMember? slot.field.spelling others)) :
      AgreeAt shape (some (.object members)) (some (.object others))
  /-- Of a node outside the grammar, every member but its tag is free. -/
  | unsupported {shape : Shape} {members others : List (String × Json)} {tag : Json}
      (isNode : shape ∈ [Shape.node, .optNode])
      (tagged : lastMember? tagKey members = some tag)
      (otherTagged : lastMember? tagKey others = some tag) (names : tag.Names none) :
      AgreeAt shape (some (.object members)) (some (.object others))
  /-- Of another record, every member is free that no slot names. -/
  | record {shape : Shape} {schema : Schema} {members others : List (String × Json)}
      (isRecord : shape.record? = some schema)
      (fields : ∀ slot ∈ schema.slots, AgreeAt slot.shape (lastMember? slot.field.spelling members)
        (lastMember? slot.field.spelling others)) :
      AgreeAt shape (some (.object members)) (some (.object others))
  | list {shape item : Shape} {items others : List Json} (isList : shape.item? = some item)
      (inside : AgreeAll (items.map fun _ => item) items others) :
      AgreeAt shape (some (.array items)) (some (.array others))
  /-- A node or another record that is written as a list has no free members of its own. -/
  | nodeList {shape : Shape} {tag : Json} {kind : Kind} {items others : List Json}
      (isNode : shape ∈ [Shape.node, .optNode]) (names : tag.Names (some kind))
      (inside : AgreeAll (kind.layout.map Slot.shape) items others) :
      AgreeAt shape (some (.array (tag :: items))) (some (.array (tag :: others)))
  | recordList {shape : Shape} {schema : Schema} {items others : List Json}
      (isRecord : shape.record? = some schema)
      (inside : AgreeAll (schema.slots.map Slot.shape) items others) :
      AgreeAt shape (some (.array items)) (some (.array others))

/-- Items agree at the shapes that are due one after the other, and from some item on are equal. -/
inductive AgreeAll : List Shape → List Json → List Json → Prop where
  | same (shapes : List Shape) (items : List Json) : AgreeAll shapes items items
  | cons {shape : Shape} {shapes : List Shape} {item other : Json} {items others : List Json}
      (first : AgreeAt shape (some item) (some other)) (rest : AgreeAll shapes items others) :
      AgreeAll (shape :: shapes) (item :: items) (other :: others)

end

theorem Names.readTag_eq {tag : Json} {kind? : Option Kind} (names : tag.Names kind?) :
    readTag tag = .ok kind? := by
  cases names with
  | name named => rw [readTag, Kind.ofTag?_eq_some_iff.mpr named]
  | index named => exact congrArg Except.ok named
  | unknown unknown => rw [readTag, Kind.ofTag?_eq_none_iff.mpr unknown]

theorem Names.canonical_eq {tag : Json} {kind? : Option Kind} (names : tag.Names kind?) :
    tag.canonical = tag := by
  cases names <;> rfl

/-- What the value in a place yields at a shape, if a value stands there. -/
def placeReading (shape : Shape) (place : Option Json) : Option (Except Mismatch (Part shape)) :=
  place.map fun value => value.canonical.reading shape

/-- Objects that yield the same in the place of every slot make the same record. -/
theorem ofMembers_canonicalMembers_eq {schema : Schema} {members others : List (String × Json)}
    (fields : ∀ slot ∈ schema.slots,
      placeReading slot.shape (lastMember? slot.field.spelling members) =
        placeReading slot.shape (lastMember? slot.field.spelling others)) :
    schema.ofMembers (memberReadings (canonicalMembers members)) =
      schema.ofMembers (memberReadings (canonicalMembers others)) := by
  have sorted (members : List (String × Json)) :
      ((memberReadings (canonicalMembers members)).map Prod.fst).Pairwise (· < ·) := by
    rw [keys_memberReadings, List.pairwise_map]
    exact sorted_canonicalMembers members
  refine YieldAlike.ofMembers_eq (fun slot listed => ?_) (sorted members) (sorted others)
  simpa [placeReading, lookup_memberReadings, member?_canonicalMembers, Function.comp_def]
    using fields slot listed

theorem readTagOf_canonicalMembers {members : List (String × Json)} {tag : Json}
    {kind? : Option Kind} (tagged : lastMember? tagKey members = some tag)
    (names : tag.Names kind?) : readTagOf (canonicalMembers members) = .ok kind? := by
  rw [readTagOf, filter_key (sorted_canonicalMembers members).nodup, member?_canonicalMembers,
    tagged]
  exact (congrArg readTag names.canonical_eq).trans names.readTag_eq

/-- The node that an object writes, by what its tag names. -/
theorem readObjectNode_of_names {members : List (String × Json)} {tag : Json} {kind : Kind}
    (tagged : lastMember? tagKey members = some tag) (names : tag.Names (some kind)) :
    readObjectNode (canonicalMembers members) (memberReadings (canonicalMembers members)) =
      Node.mk kind <$> kind.schema.ofMembers (memberReadings (canonicalMembers members)) := by
  rw [readObjectNode, readTagOf_canonicalMembers tagged names]
  exact bind_pure_comp (m := Except Mismatch) _ _

theorem readObjectNode_of_unknown {members : List (String × Json)} {tag : Json}
    (tagged : lastMember? tagKey members = some tag) (unknown : tag.Names none) :
    readObjectNode (canonicalMembers members) (memberReadings (canonicalMembers members)) =
      .ok .unsupported := by
  rw [readObjectNode, readTagOf_canonicalMembers tagged unknown]
  rfl

/-- The node that a list writes, by what its first item names. -/
theorem readListNode_of_names {tag : Json} {items : List Json} {kind : Kind}
    (names : tag.Names (some kind)) :
    readListNode (canonicalItems (tag :: items)) (itemReadings (canonicalItems (tag :: items))) =
      Node.mk kind <$> kind.schema.ofItems (itemReadings (canonicalItems items)) := by
  rw [canonicalItems, itemReadings, readListNode, names.canonical_eq, names.readTag_eq]
  exact bind_pure_comp (m := Except Mismatch) _ _

/-! ## Shapes -/

section Shapes

variable {shape : Shape}

theorem reading_object_node {members others : List (String × Json)}
    (isNode : shape ∈ [Shape.node, .optNode])
    (same : readObjectNode (canonicalMembers members) (memberReadings (canonicalMembers members)) =
      readObjectNode (canonicalMembers others) (memberReadings (canonicalMembers others))) :
    (object members).canonical.reading shape = (object others).canonical.reading shape := by
  simp only [List.mem_cons, List.not_mem_nil, or_false] at isNode
  rcases isNode with rfl | rfl <;>
    rw [canonical, canonical, reading, reading, Reading.object, Reading.object, same]

theorem reading_object_record {schema : Schema} {members others : List (String × Json)}
    (isRecord : shape.record? = some schema)
    (same : schema.ofMembers (memberReadings (canonicalMembers members)) =
      schema.ofMembers (memberReadings (canonicalMembers others))) :
    (object members).canonical.reading shape = (object others).canonical.reading shape := by
  rw [canonical, canonical, reading, reading]
  cases shape <;> cases isRecord <;> rw [Reading.object, Reading.object, same]

theorem reading_array_node {items others : List Json} (isNode : shape ∈ [Shape.node, .optNode])
    (same : readListNode (canonicalItems items) (itemReadings (canonicalItems items)) =
      readListNode (canonicalItems others) (itemReadings (canonicalItems others))) :
    (array items).canonical.reading shape = (array others).canonical.reading shape := by
  simp only [List.mem_cons, List.not_mem_nil, or_false] at isNode
  rcases isNode with rfl | rfl <;>
    rw [canonical, canonical, reading, reading, Reading.array, Reading.array, same]

theorem reading_array_record {schema : Schema} {items others : List Json}
    (isRecord : shape.record? = some schema)
    (same : schema.ofItems (itemReadings (canonicalItems items)) =
      schema.ofItems (itemReadings (canonicalItems others))) :
    (array items).canonical.reading shape = (array others).canonical.reading shape := by
  rw [canonical, canonical, reading, reading]
  cases shape <;> cases isRecord <;> rw [Reading.array, Reading.array, same]

theorem reading_array_list {item : Shape} {items others : List Json}
    (isList : shape.item? = some item)
    (same : ∀ {α : Type} (f : Part item → α),
      ((itemReadings (canonicalItems items)).mapM fun reading => f <$> reading item) =
        (itemReadings (canonicalItems others)).mapM fun reading => f <$> reading item) :
    (array items).canonical.reading shape = (array others).canonical.reading shape := by
  rw [canonical, canonical, reading, reading]
  cases shape <;> cases isList
  · exact congrArg (· >>= fun nodes => pure (Part.nodes nodes)) (same Part.content)
  · exact congrArg (· >>= fun nodes => pure (Part.holes nodes)) (same Part.content)
  · exact congrArg (· >>= fun chunks => pure (Part.chunks chunks)) (same Part.content)

end Shapes

/-! ## Values -/

mutual

/-- Places that agree yield the same at the shape that is due. -/
theorem AgreeAt.placeReading_eq {shape : Shape} {place other : Option Json} :
    AgreeAt shape place other → placeReading shape place = placeReading shape other
  | .same _ _ => rfl
  | .node isNode tagged otherTagged names fields => by
      refine congrArg some (reading_object_node isNode ?_)
      rw [readObjectNode_of_names tagged names, readObjectNode_of_names otherTagged names]
      exact congrArg _ (ofMembers_canonicalMembers_eq fun slot listed =>
        (fields slot listed).placeReading_eq)
  | .unsupported isNode tagged otherTagged unknown => by
      refine congrArg some (reading_object_node isNode ?_)
      rw [readObjectNode_of_unknown tagged unknown, readObjectNode_of_unknown otherTagged unknown]
  | .record isRecord fields =>
      congrArg some (reading_object_record isRecord
        (ofMembers_canonicalMembers_eq fun slot listed => (fields slot listed).placeReading_eq))
  | .list isList inside =>
      congrArg some (reading_array_list isList fun f => inside.mapM_eq f (by simp))
  | .nodeList isNode names inside => by
      refine congrArg some (reading_array_node isNode ?_)
      rw [readListNode_of_names names, readListNode_of_names names]
      exact congrArg _ (inside.ofItemsFrom_eq _ 0 rfl)
  | .recordList isRecord inside =>
      congrArg some (reading_array_record isRecord (inside.ofItemsFrom_eq _ 0 rfl))

/-- Items that agree fill the slots from some index on alike. -/
theorem AgreeAll.ofItemsFrom_eq {shapes : List Shape} {items others : List Json}
    (agree : AgreeAll shapes items others) (schema : Schema) {slots : List Slot} (index : Nat)
    (due : slots.map Slot.shape = shapes) :
    schema.ofItemsFrom slots index (itemReadings (canonicalItems items)) =
      schema.ofItemsFrom slots index (itemReadings (canonicalItems others)) :=
  match agree with
  | .same _ _ => rfl
  | .cons first rest => by
      have here := Option.some.inj first.placeReading_eq
      obtain ⟨slot, slots, rfl, sameShape, dueRest⟩ := List.map_eq_cons_iff.mp due
      have below := rest.ofItemsFrom_eq schema (index + 1) dueRest
      cases sameShape
      simp only [canonicalItems, itemReadings, Schema.ofItemsFrom, here, below]

/-- Items that agree at one shape yield the same list. -/
theorem AgreeAll.mapM_eq {shapes : List Shape} {shape : Shape} {items others : List Json}
    {α : Type} (agree : AgreeAll shapes items others) (f : Part shape → α)
    (due : ∀ other ∈ shapes, other = shape) :
    ((itemReadings (canonicalItems items)).mapM fun reading => f <$> reading shape) =
      (itemReadings (canonicalItems others)).mapM fun reading => f <$> reading shape :=
  match agree with
  | .same _ _ => rfl
  | .cons first rest => by
      have here := Option.some.inj first.placeReading_eq
      obtain ⟨sameShape, dueRest⟩ := List.forall_mem_cons.mp due
      have below := rest.mapM_eq f dueRest
      cases sameShape
      simp only [canonicalItems, itemReadings, List.mapM_cons, here, below]

end

/-- Values that agree where a node is due have the same outermost tag, if any. -/
theorem AgreeAt.outerTag?_eq {value other : Json}
    (agree : AgreeAt .node (some value) (some other)) :
    value.canonical.outerTag? = other.canonical.outerTag? := by
  cases agree with
  | same => rfl
  | node isNode tagged otherTagged =>
      rw [outerTag?_canonical_object, outerTag?_canonical_object, tagged, otherTagged]
  | unsupported isNode tagged otherTagged =>
      rw [outerTag?_canonical_object, outerTag?_canonical_object, tagged, otherTagged]
  | record isRecord => cases isRecord
  | list isList => cases isList
  | nodeList => rfl
  | recordList isRecord => cases isRecord

theorem AgreeAt.toNode_eq {value other : Json} (agree : AgreeAt .node (some value) (some other)) :
    value.canonical.toNode = other.canonical.toNode := by
  have sameNode : value.canonical.reading.node = other.canonical.reading.node :=
    congrArg (· >>= fun part : Part .node => pure part.content)
      (Option.some.inj agree.placeReading_eq)
  rw [toNode, toNode, agree.outerTag?_eq, sameNode]

end Json

namespace Load

/-- Members outside the model never matter. Values that agree on what the model holds load as the
same node or fail with the same error, and so every query has the same answer for both. -/
theorem ofJson_eq_of_agreeAt {value other : Json}
    (agree : Json.AgreeAt .node (some value) (some other)) :
    ofJson value = ofJson other ∧
      ∀ (verb : Command.Verb) (words : List String),
        (ofJson value).map (verb.answer words) = (ofJson other).map (verb.answer words) := by
  have same : ofJson value = ofJson other :=
    congrArg (Except.mapError LoadError.ofMismatch) agree.toNode_eq
  exact ⟨same, fun verb words => congrArg _ same⟩

/-- Members are added to a template, to its chunk and to the text of the chunk, and a node outside
the grammar is exchanged. Whether the template is loaded depends on the chunk alone. -/
theorem ofJson_eq_of_agreeAt_template :
    let bare (tail : Json) : Json := .object [
      ("type", .string "TemplateLiteral"),
      ("quasis", .array [.object [("value", .object [("raw", .string "a")]), ("tail", tail)]]),
      ("expressions", .array [.object [("type", .string "Pipe"), ("left", .null)]])]
    let full (tail : Json) : Json := .object [
      ("expressions", .array [.object [("name", .string "a"), ("type", .string "Pipe")]]),
      ("kind", .null),
      ("quasis", .array [.object [
        ("raw", .string "a"), ("tail", tail), ("type", .string "TemplateElement"),
        ("value", .object [("raw", .string "a"), ("tail", .null)])]]),
      ("type", .string "TemplateLiteral")]
    ofJson (full (.bool true)) =
        .ok (.make .templateLiteral ([⟨⟨"a", none⟩, true⟩], [.unsupported], ())) ∧
      ofJson (full .null) = ofJson (bare .null) ∧
      ∃ error, ofJson (bare .null) = .error error := by
  intro bare full
  have agree (tail : Json) : Json.AgreeAt .node (some (bare tail)) (some (full tail)) := by
    have unknown : ∀ kind : Kind, ¬ kind.IsNamed "Pipe" := by
      rw [← Kind.ofTag?_eq_none_iff]
      rfl
    have pipe : Json.AgreeAt .node
        (some (.object [("type", .string "Pipe"), ("left", .null)]))
        (some (.object [("name", .string "a"), ("type", .string "Pipe")])) :=
      .unsupported (by simp) rfl rfl (.unknown unknown)
    have text : Json.AgreeAt .chunkText (some (.object [("raw", .string "a")]))
        (some (.object [("raw", .string "a"), ("tail", .null)])) :=
      .record rfl (List.forall_mem_cons.mpr ⟨.same _ _, List.forall_mem_singleton.mpr (.same _ _)⟩)
    refine .node (by simp) rfl rfl (.name (.inl rfl : Kind.templateLiteral.IsNamed _)) ?_
    refine List.forall_mem_cons.mpr ⟨?_, List.forall_mem_singleton.mpr ?_⟩
    · refine .list rfl (.cons (.record rfl ?_) (.same _ _))
      exact List.forall_mem_cons.mpr ⟨text, List.forall_mem_singleton.mpr (.same _ _)⟩
    · exact .list rfl (.cons pipe (.same _ _))
  refine ⟨?_, (ofJson_eq_of_agreeAt (agree _)).1.symm, _, rfl⟩
  rw [← (ofJson_eq_of_agreeAt (agree _)).1]
  rfl

end Load

end TreeQuery
