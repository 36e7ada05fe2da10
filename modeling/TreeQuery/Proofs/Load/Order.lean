import TreeQuery.Load
import TreeQuery.Proofs.Load.Members

/-!
# Loading and the order of members

What a value without repeated keys yields does not depend on the order of its members, so it yields
the same as its canonical form: the same part at every shape, or an error at the same shapes. The
same node is loaded from values that differ only in the order of members, or from none of them.
-/

namespace TreeQuery

namespace Json

theorem itemReadings_eq_map (items : List Json) : itemReadings items = items.map reading := by
  induction items with
  | nil => rfl
  | cons item items induction => rw [itemReadings, induction, List.map_cons]

theorem memberReadings_eq_map (members : List (String × Json)) :
    memberReadings members = members.map fun member => (member.1, member.2.reading) := by
  induction members with
  | nil => rfl
  | cons member members induction =>
      obtain ⟨key, value⟩ := member
      rw [memberReadings, induction, List.map_cons]

theorem keys_memberReadings (members : List (String × Json)) :
    (memberReadings members).map Prod.fst = members.map Prod.fst := by
  rw [memberReadings_eq_map, List.map_map]
  rfl

theorem lookup_memberReadings (key : String) (members : List (String × Json)) :
    (memberReadings members).lookup key = (member? key members).map reading := by
  induction members with
  | nil => rfl
  | cons member members induction =>
      obtain ⟨other, value⟩ := member
      rw [memberReadings, List.lookup_cons, induction, member?_cons]
      by_cases same : key = other
      · simp [same]
      · simp [same, beq_eq_false_iff_ne.mpr same]

theorem filter_key {key : String} {members : List (String × Json)}
    (keys : (members.map Prod.fst).Nodup) :
    members.filter (fun member => member.1 == key) =
      ((member? key members).map fun value => (key, value)).toList := by
  induction members with
  | nil => rfl
  | cons member members induction =>
      obtain ⟨other, value⟩ := member
      obtain ⟨fresh, keys⟩ := List.nodup_cons.mp keys
      rw [List.filter_cons, member?_cons, induction keys]
      by_cases same : other = key
      · subst same
        rw [member?_eq_none_iff.mpr fresh]
        simp
      · simp [same, Ne.symm same]

end Json

/-! ## Objects without repeated keys -/

/-- The node with a tag and members that are looked up by key. -/
def gatherNode (tag : Option Json) (lookup : String → Option Reading) : Option Node :=
  (tag.bind fun tag => (readTag tag).toOption).bind fun
    | some kind => (gather kind.layout lookup).map (.mk kind)
    | none => some .unsupported

/-- What the members of an object yield, by key. -/
def readingsOf (members : List (String × Json)) (key : String) : Option Reading :=
  (Json.member? key members).map Json.reading

section Objects

variable {members : List (String × Json)} (keys : (members.map Prod.fst).Nodup)
include keys

theorem toOption_readTagOf :
    (readTagOf members).toOption =
      (Json.member? tagKey members).bind fun tag => (readTag tag).toOption := by
  rw [readTagOf, Json.filter_key keys]
  cases Json.member? tagKey members <;> rfl

theorem toOption_ofMemberReadings {schema : Schema} (distinct : (slotKeys schema.slots).Nodup) :
    (schema.ofMembers (Json.memberReadings members)).toOption =
      gather schema.slots (readingsOf members) := by
  rw [Schema.toOption_ofMembers distinct (by rwa [Json.keys_memberReadings])]
  simp only [Json.lookup_memberReadings]
  rfl

/-- An object without repeated keys writes the node that look-up gives. -/
theorem toOption_readObjectNode :
    (readObjectNode members (Json.memberReadings members)).toOption =
      gatherNode (Json.member? tagKey members) (readingsOf members) := by
  rw [readObjectNode, gatherNode, toOption_bind, toOption_readTagOf keys]
  congr 1
  funext kind
  cases kind with
  | none => rfl
  | some kind =>
      have parts := @toOption_ofMemberReadings _ keys kind.schema kind.nodup_slotKeys
      exact (toOption_bind_pure _ (Node.mk kind)).trans (congrArg (Option.map (Node.mk kind)) parts)

theorem toOption_object_node :
    ((Json.object members).reading .node).toOption =
      (gatherNode (Json.member? tagKey members) (readingsOf members)).map .node := by
  rw [Json.reading, Reading.object, toOption_bind_pure, toOption_readObjectNode keys]

theorem toOption_object_optNode :
    ((Json.object members).reading .optNode).toOption =
      (gatherNode (Json.member? tagKey members) (readingsOf members)).map
        fun node => .optNode (some node) := by
  rw [Json.reading, Reading.object, toOption_bind_pure, toOption_readObjectNode keys]

theorem toOption_object_regex :
    ((Json.object members).reading .regex).toOption =
      (gather Schema.regex.slots (readingsOf members)).map
        fun parts => .regex (some (.ofParts parts)) := by
  rw [Json.reading, Reading.object, toOption_bind_pure, toOption_ofMemberReadings keys (by decide)]

theorem toOption_object_chunkText :
    ((Json.object members).reading .chunkText).toOption =
      (gather Schema.chunkText.slots (readingsOf members)).map
        fun parts => .chunkText (.ofParts parts) := by
  rw [Json.reading, Reading.object, toOption_bind_pure, toOption_ofMemberReadings keys (by decide)]

theorem toOption_object_chunk :
    ((Json.object members).reading .chunk).toOption =
      (gather Schema.chunk.slots (readingsOf members)).map
        fun parts => .chunk (.ofParts parts) := by
  rw [Json.reading, Reading.object, toOption_bind_pure, toOption_ofMemberReadings keys (by decide)]

end Objects

/-! ## Lists -/

section Lists

variable {α : Type} {values : List α} {first second : α → Reading}

theorem Schema.toOption_ofItemsFrom_congr {schema : Schema} {slots : List Slot} {index : Nat}
    (alike : ∀ value ∈ values, ∀ shape,
      (first value shape).toOption = (second value shape).toOption) :
    (schema.ofItemsFrom slots index (values.map first)).toOption =
      (schema.ofItemsFrom slots index (values.map second)).toOption := by
  induction values generalizing slots index with
  | nil => rfl
  | cons value values induction =>
      obtain ⟨here, later⟩ := List.forall_mem_cons.mp alike
      cases slots with
      | nil => rfl
      | cons slot slots =>
          simp only [List.map_cons, Schema.ofItemsFrom, toOption_bind, here, induction later]

theorem toOption_mapM_congr {β : Type} {f : Reading → Except Mismatch β}
    (alike : ∀ value ∈ values, (f (first value)).toOption = (f (second value)).toOption) :
    ((values.map first).mapM f).toOption = ((values.map second).mapM f).toOption := by
  induction values with
  | nil => rfl
  | cons value values induction =>
      obtain ⟨here, later⟩ := List.forall_mem_cons.mp alike
      simp only [List.map_cons, List.mapM_cons, toOption_bind, here, induction later]

end Lists

/-! ## Canonical forms -/

namespace Json

theorem toOption_readTag_canonical (tag : Json) :
    (readTag tag.canonical).toOption = (readTag tag).toOption := by
  cases tag <;> rfl

theorem toOption_readKeyedWord_canonical {vocabulary : Vocabulary}
    (members : List (String × Json)) (keys : (members.map Prod.fst).Nodup) :
    (readKeyedWord vocabulary (canonicalMembers members)).toOption =
      (readKeyedWord vocabulary members).toOption := by
  have perm := canonicalMembers_perm keys
  match members with
  | [] => rfl
  | [(key, value)] =>
      have single : canonicalMembers [(key, value)] = [(key, value.canonical)] := rfl
      rw [single, readKeyedWord, readKeyedWord, toOption_bind, toOption_bind]
      congr 1
      funext word
      match value with
      | .null | .bool _ | .number _ | .string _ | .array _ => rfl
      | .object [] => rfl
      | .object (member :: members) =>
          have present : (canonicalMembers (member :: members)).map Prod.fst ≠ [] :=
            List.ne_nil_of_mem (mem_keys_canonicalMembers.mpr List.mem_cons_self)
          cases found : canonicalMembers (member :: members) with
          | nil => simp [found] at present
          | cons other others => simp [canonical, found]; rfl
  | first :: second :: others =>
      cases found : canonicalMembers (first :: second :: others) with
      | nil => simp [found] at perm
      | cons other rest =>
          cases rest with
          | nil => simpa [found] using perm.length_eq
          | cons _ _ => rfl

section Items

variable {items : List Json} (alike : ∀ item ∈ items, ∀ shape,
  (item.canonical.reading shape).toOption = (item.reading shape).toOption)

include alike

theorem toOption_ofItems_canonical (schema : Schema) :
    (schema.ofItems ((items.map canonical).map reading)).toOption =
      (schema.ofItems (items.map reading)).toOption := by
  rw [List.map_map]
  exact Schema.toOption_ofItemsFrom_congr alike

theorem toOption_readListNode_canonical :
    (readListNode (items.map canonical) ((items.map canonical).map reading)).toOption =
      (readListNode items (items.map reading)).toOption := by
  cases items with
  | nil => rfl
  | cons tag items =>
      have later := (List.forall_mem_cons.mp alike).2
      simp only [List.map_cons, readListNode, toOption_bind, toOption_readTag_canonical]
      congr 1
      funext kind
      cases kind with
      | none => cases items <;> rfl
      | some kind =>
          have parts := toOption_ofItems_canonical later kind.schema
          exact (toOption_bind_pure _ (Node.mk kind)).trans
            ((congrArg (Option.map (Node.mk kind)) parts).trans (toOption_bind_pure _ _).symm)

/-- A list is a node, a record or a list of parts, and each of these readers sees the items only
through what they yield. -/
theorem toOption_array_canonical (shape : Shape) :
    ((array items).canonical.reading shape).toOption =
      ((array items).reading shape).toOption := by
  have listNode := toOption_readListNode_canonical alike
  have records := toOption_ofItems_canonical alike
  have lists : ∀ {β : Type} (shape : Shape) (f : Part shape → β),
      (((items.map canonical).map reading).mapM fun (yields : Reading) =>
          yields shape >>= fun part => pure (f part)).toOption =
        ((items.map reading).mapM fun (yields : Reading) =>
          yields shape >>= fun part => pure (f part)).toOption := by
    intro β shape f
    rw [List.map_map]
    refine toOption_mapM_congr fun item present => ?_
    rw [toOption_bind_pure, toOption_bind_pure, Function.comp_apply, alike item present]
  simp only [canonical, reading, itemReadings_eq_map, canonicalItems_eq_map]
  cases shape with
  | node => simp only [Reading.array, toOption_bind_pure, listNode]
  | optNode => simp only [Reading.array, toOption_bind_pure, listNode]
  | nodes =>
      simp only [Reading.array, toOption_bind_pure]
      exact congrArg _ (lists .node Part.content)
  | holes => simp only [Reading.array, toOption_bind_pure, lists]
  | chunks => simp only [Reading.array, toOption_bind_pure, lists]
  | regex => simp only [Reading.array, toOption_bind_pure, records]
  | chunkText => simp only [Reading.array, toOption_bind_pure, records]
  | chunk => simp only [Reading.array, toOption_bind_pure, records]
  | literal =>
      have same := canonical_canonical (.array items)
      simp only [canonical, canonicalItems_eq_map] at same
      simp only [Reading.array, canonical, canonicalItems_eq_map, same]
  | _ => rfl

end Items

section Members

variable {members : List (String × Json)} (keys : (members.map Prod.fst).Nodup)

include keys

theorem member?_canonicalMembers_of_nodup (key : String) :
    member? key (canonicalMembers members) = (member? key members).map canonical := by
  rw [member?_canonicalMembers, lastMember?_eq_member? keys]

/-- Neither form of the members repeats a key, so both are read by look-up. -/
theorem toOption_object_canonical
    (alike : ∀ member ∈ members, ∀ shape,
      (member.2.canonical.reading shape).toOption = (member.2.reading shape).toOption)
    (shape : Shape) :
    ((object members).canonical.reading shape).toOption =
      ((object members).reading shape).toOption := by
  have sortedKeys := (sorted_canonicalMembers members).nodup
  have tag : ((member? tagKey (canonicalMembers members)).bind fun tag =>
      (readTag tag).toOption) = (member? tagKey members).bind fun tag =>
        (readTag tag).toOption := by
    rw [member?_canonicalMembers_of_nodup keys, Option.bind_map]
    simp only [Function.comp_def, toOption_readTag_canonical]
  have parts : ∀ slots, gather slots (readingsOf (canonicalMembers members)) =
      gather slots (readingsOf members) := by
    intro slots
    refine gather_congr fun slot _ => ?_
    rw [readingsOf, readingsOf, member?_canonicalMembers_of_nodup keys]
    cases found : member? slot.field.spelling members with
    | none => rfl
    | some value => exact alike _ (mem_of_member?_eq_some found) slot.shape
  have node : gatherNode (member? tagKey (canonicalMembers members))
      (readingsOf (canonicalMembers members)) =
        gatherNode (member? tagKey members) (readingsOf members) := by
    simp only [gatherNode, tag, parts]
  rw [canonical]
  cases shape with
  | node => rw [toOption_object_node sortedKeys, toOption_object_node keys, node]
  | optNode => rw [toOption_object_optNode sortedKeys, toOption_object_optNode keys, node]
  | regex => rw [toOption_object_regex sortedKeys, toOption_object_regex keys, parts]
  | chunkText => rw [toOption_object_chunkText sortedKeys, toOption_object_chunkText keys, parts]
  | chunk => rw [toOption_object_chunk sortedKeys, toOption_object_chunk keys, parts]
  | choice vocabulary =>
      simp only [reading, Reading.object, toOption_bind_pure,
        toOption_readKeyedWord_canonical members keys]
  | literal =>
      have same := canonical_canonical (.object members)
      simp only [canonical] at same
      simp only [reading, Reading.object, canonical, same]
  | _ => rfl

end Members

/-- Where no key is repeated, a value yields the same part as its canonical form, or both yield an
error. -/
theorem toOption_reading_canonical {value : Json} (distinct : Distinct value) :
    ∀ shape, (value.canonical.reading shape).toOption = (value.reading shape).toOption := by
  induction distinct with
  | array _ induction => exact toOption_array_canonical induction
  | object keys _ induction => exact toOption_object_canonical keys induction
  | _ => exact fun _ => rfl

theorem outerTag?_canonical {value : Json} (distinct : Distinct value) :
    value.canonical.outerTag? = value.outerTag?.map canonical := by
  cases distinct with
  | @array items _ => cases items <;> rfl
  | object keys _ => exact member?_canonicalMembers_of_nodup keys tagKey
  | _ => rfl

theorem toOption_toNode_canonical {value : Json} (distinct : Distinct value) :
    value.canonical.toNode.toOption = value.toNode.toOption := by
  have node : value.canonical.reading.node.toOption = value.reading.node.toOption := by
    rw [Reading.node, Reading.node, toOption_bind_pure, toOption_bind_pure,
      toOption_reading_canonical distinct]
  rw [toNode, toNode, outerTag?_canonical distinct]
  match value.outerTag? with
  | some (.number _) => rfl
  | none | some .null | some (.bool _) | some (.string _) => exact node
  | some (.array _) | some (.object _) => exact node

/-- Values that differ only in the order of members write the same node or none. -/
theorem toOption_toNode_rearranged {value other : Json} (rearranged : Rearranged value other)
    (distinct : Distinct value) : value.toNode.toOption = other.toNode.toOption := by
  rw [← toOption_toNode_canonical distinct, rearranged.canonical_eq distinct,
    toOption_toNode_canonical (rearranged.distinct distinct)]

end Json

end TreeQuery
