import TreeQuery.Command.Run
import TreeQuery.Proofs.Json.Reader
import TreeQuery.Proofs.Load.Order
import TreeQuery.Proofs.Text.Utf8

/-!
# Two ways to load a document

A document is read as a node at once, with the outermost tag watched on the way, or it is read as a
value from which a pointer then selects the node. The first way takes members in the order of the
text and the second in the order of their keys, and they find different things wrong. Still both
give the same node, or neither gives one, as long as no key is repeated.
-/

namespace TreeQuery

/-! ## The outermost tag -/

namespace Document

open Json (Cursor Fault)

theorem ofText_eq_ok_iff {α : Type} {result : Except Fault α} {value : α} :
    ofText result = .ok value ↔ result = .ok value :=
  mapError_eq_ok_iff

theorem exists_readWith (depth : Nat) :
    ∃ nested, Json.readValue depth = Json.readWith nested := by
  cases depth <;> exact ⟨_, rfl⟩

/-- The outermost tag is read as any value is, but has to be a string. -/
theorem readOuterTag_eq_ok_iff {depth : Nat} {cursor : Cursor} {reached : Json × Cursor} :
    readOuterTag cursor = .ok reached ↔
      Json.readValue depth cursor = .ok reached ∧ ∃ tag, reached.1 = .string tag := by
  obtain ⟨nested, reads⟩ := exists_readWith depth
  rw [reads, readOuterTag]
  dsimp only
  split
  · rename_i list
    refine ⟨nofun, fun ⟨read, _, isTag⟩ => ?_⟩
    obtain ⟨_, _, _, _, _, rfl⟩ := (Json.readWith_list list).mp read
    cases isTag
  · rename_i object
    refine ⟨nofun, fun ⟨read, _, isTag⟩ => ?_⟩
    obtain ⟨_, _, _, _, _, rfl⟩ := (Json.readWith_object object).mp read
    cases isTag
  · rename_i notList notObject
    obtain ⟨value, behind⟩ := reached
    rw [Json.readWith_scalar notList notObject, bind_eq_ok_iff]
    constructor
    · rintro ⟨⟨value, behind⟩, read, rest⟩
      dsimp only at rest
      split at rest
      · cases rest
        exact ⟨ofText_eq_ok_iff.mp read, _, rfl⟩
      · cases rest
    · rintro ⟨read, tag, rfl⟩
      exact ⟨_, ofText_eq_ok_iff.mpr read, rfl⟩

/-- The tags among members. -/
def tagsOf (members : List (String × Json)) : List Json :=
  (members.filter fun member => member.1 == tagKey).map Prod.snd

/-- The members read so far have one tag at most, and it is a string. -/
def OneTag (members : List (String × Json)) : Prop :=
  tagsOf members = [] ∨ ∃ tag, tagsOf members = [.string tag]

theorem tagsOf_cons {key : String} {value : Json} {members : List (String × Json)} :
    tagsOf ((key, value) :: members) =
      if key = tagKey then value :: tagsOf members else tagsOf members := by
  by_cases same : key = tagKey <;> simp [tagsOf, same]

theorem any_tag_iff {members : List (String × Json)} :
    (members.any fun member => member.1 == tagKey) = true ↔ tagsOf members ≠ [] := by
  simp [tagsOf]

theorem oneTag_cons {key : String} {value : Json} {members : List (String × Json)} :
    OneTag ((key, value) :: members) ↔
      OneTag members ∧ (key = tagKey → tagsOf members = [] ∧ ∃ tag, value = .string tag) := by
  rw [OneTag, OneTag, tagsOf_cons]
  by_cases same : key = tagKey
  · simp [same]
    tauto
  · simp [same]

/-- Members are read as those of any object, but their one tag has to be a string. -/
theorem watches_readOuterMember (depth : Nat) :
    Json.Watches (readOuterMember (Json.readValue depth))
      (Json.readMember (Json.readValue depth)) OneTag where
  eq_ok_iff := by
    intro members cursor reached fine
    refine bind_ok_and_congr (fun _ => ofText_eq_ok_iff) fun ⟨key, behindKey⟩ => ?_
    dsimp only
    by_cases isTag : key = tagKey
    · rw [if_pos isTag]
      by_cases noTag : tagsOf members = []
      · rw [if_neg (mt any_tag_iff.mp (not_not.mpr noTag))]
        refine bind_ok_and_congr (fun _ => ofText_eq_ok_iff) fun behindColon => ?_
        refine bind_pure_ok_and_congr fun held => ?_
        rw [@readOuterTag_eq_ok_iff depth, oneTag_cons]
        simp [fine, isTag, noTag]
      · rw [if_pos (any_tag_iff.mpr noTag)]
        refine ⟨nofun, fun ⟨read, fineBehind⟩ => ?_⟩
        obtain ⟨_, _, rest⟩ := bind_eq_ok_iff.mp read
        obtain ⟨⟨member, _⟩, _, rfl⟩ := bind_pure_eq_ok_iff.mp rest
        exact absurd ((oneTag_cons.mp fineBehind).2 isTag).1 noTag
    · rw [if_neg isTag]
      refine bind_ok_and_congr (fun _ => ofText_eq_ok_iff) fun behindColon => ?_
      refine bind_pure_ok_and_congr fun held => ?_
      rw [ofText_eq_ok_iff, oneTag_cons]
      simp [fine, isTag]
  fine_before := by
    intro members cursor reached read fine
    obtain ⟨_, _, rest⟩ := bind_eq_ok_iff.mp read
    obtain ⟨_, _, rest⟩ := bind_eq_ok_iff.mp rest
    obtain ⟨_, _, rfl⟩ := bind_pure_eq_ok_iff.mp rest
    exact (oneTag_cons.mp fine).1

/-- The first item read, which is the last of the list so far, is a string. -/
def FirstIsTag (items : List Json) : Prop :=
  ∀ first ∈ items.getLast?, ∃ tag, first = .string tag

/-- Items are read as those of any list, but the first has to be a string. -/
theorem watches_readOuterItem (depth : Nat) :
    Json.Watches (readOuterItem (Json.readValue depth))
      (Json.readItem (Json.readValue depth)) FirstIsTag where
  eq_ok_iff := by
    intro items cursor reached fine
    rw [readOuterItem, Json.readItem]
    cases items with
    | nil =>
        refine bind_pure_ok_and_congr fun held => ?_
        rw [@readOuterTag_eq_ok_iff depth]
        simp [FirstIsTag]
    | cons item items =>
        refine bind_pure_ok_and_congr fun held => ?_
        rw [ofText_eq_ok_iff]
        simp only [FirstIsTag, List.getLast?_cons_cons]
        exact (and_iff_left fine).symm
  fine_before := by
    intro items cursor reached read fine
    obtain ⟨_, _, rfl⟩ := bind_pure_eq_ok_iff.mp read
    cases items with
    | nil => nofun
    | cons item items => simpa only [FirstIsTag, List.getLast?_cons_cons] using fine

/-- The outermost node of a value has one tag, which is a string. -/
def Tagged : Json → Prop
  | .array items => ∃ tag, items.head? = some (.string tag)
  | .object members => ∃ tag, tagsOf members = [.string tag]
  | _ => False

theorem tagged_array_reverse {items : List Json} :
    Tagged (.array items.reverse) ↔ FirstIsTag items ∧ items.isEmpty = false := by
  rw [Tagged, FirstIsTag, List.head?_reverse, ← Bool.not_eq_true, List.isEmpty_iff,
    ← List.getLast?_eq_none_iff]
  cases items.getLast? <;> simp

theorem tagged_object_reverse {members : List (String × Json)} :
    Tagged (.object members.reverse) ↔
      OneTag members ∧ (members.any fun member => member.1 == tagKey) = true := by
  have backward : tagsOf members.reverse = (tagsOf members).reverse := by simp [tagsOf]
  rw [Tagged, OneTag, any_tag_iff, backward]
  constructor
  · rintro ⟨tag, found⟩
    have found : tagsOf members = [.string tag] := by simpa using found
    simp [found]
  · rintro ⟨none | ⟨tag, found⟩, some⟩
    · exact absurd none some
    · exact ⟨tag, by rw [found]; rfl⟩

theorem not_tagged_of_readScalar {cursor : Cursor} {reached : Json × Cursor}
    (read : Json.readScalar cursor = .ok reached) : ¬ Tagged reached.1 := by
  rw [Json.readScalar.eq_def] at read
  split at read
  · cases read
  · obtain ⟨_, _, rfl⟩ := bind_pure_eq_ok_iff.mp read
    exact id
  · obtain ⟨_, _, rfl⟩ := bind_pure_eq_ok_iff.mp read
    exact id
  · obtain ⟨_, _, rfl⟩ := bind_pure_eq_ok_iff.mp read
    exact id
  · obtain ⟨_, _, rfl⟩ := bind_pure_eq_ok_iff.mp read
    exact id
  · split at read
    · obtain ⟨_, _, rest⟩ := bind_eq_ok_iff.mp read
      obtain ⟨_, _, rfl⟩ := bind_pure_eq_ok_iff.mp rest
      exact id
    · cases read

/-- The outermost value is read as any value is, but has to have one tag that is a string. -/
theorem readOuter_eq_ok_iff {depth : Nat} {cursor : Cursor} {reached : Json × Cursor} :
    readOuter (Json.readValue depth) cursor = .ok reached ↔
      Json.readValue (depth + 1) cursor = .ok reached ∧ Tagged reached.1 := by
  rw [readOuter, Json.readValue]
  dsimp only
  split
  · rename_i list
    have none : FirstIsTag [] := by simp [FirstIsTag]
    have watches := watches_readOuterItem depth
    rw [Json.readWith_list list, bind_eq_ok_iff]
    constructor
    · rintro ⟨⟨items, behind⟩, read, rest⟩
      obtain ⟨read, first⟩ := (Json.readEntries_eq_ok_iff watches none).mp read
      cases empty : items.isEmpty with
      | true => simp [empty] at rest
      | false =>
          simp only [empty, Bool.false_eq_true, if_false] at rest
          cases rest
          exact ⟨⟨_, items, behind, rfl, read, rfl⟩, tagged_array_reverse.mpr ⟨first, empty⟩⟩
    · rintro ⟨⟨_, items, behind, same, read, rfl⟩, tagged⟩
      cases same
      obtain ⟨first, empty⟩ := tagged_array_reverse.mp tagged
      refine ⟨(items, behind), (Json.readEntries_eq_ok_iff watches none).mpr ⟨read, first⟩, ?_⟩
      simp only [empty, Bool.false_eq_true, if_false]
      rfl
  · rename_i object
    have none : OneTag [] := .inl rfl
    have watches := watches_readOuterMember depth
    rw [Json.readWith_object object, bind_eq_ok_iff]
    constructor
    · rintro ⟨⟨members, behind⟩, read, rest⟩
      obtain ⟨read, one⟩ := (Json.readEntries_eq_ok_iff watches none).mp read
      cases some : members.any fun member => member.1 == tagKey with
      | false => simp [some] at rest
      | true =>
          simp only [some, if_true] at rest
          cases rest
          exact ⟨⟨_, members, behind, rfl, read, rfl⟩, tagged_object_reverse.mpr ⟨one, some⟩⟩
    · rintro ⟨⟨_, members, behind, same, read, rfl⟩, tagged⟩
      cases same
      obtain ⟨one, some⟩ := tagged_object_reverse.mp tagged
      refine ⟨(members, behind), (Json.readEntries_eq_ok_iff watches none).mpr ⟨read, one⟩, ?_⟩
      simp only [some, if_true]
      rfl
  · rename_i notList notObject
    rw [Json.readWith_scalar notList notObject, bind_eq_ok_iff]
    constructor
    · rintro ⟨_, _, rest⟩
      cases rest
    · rintro ⟨read, tagged⟩
      exact absurd tagged (not_tagged_of_readScalar read)

/-! ## Documents -/

theorem readTag_eq_ok {tag : Json} {kind : Option Kind} (named : readTag tag = .ok kind) :
    (∃ text, tag = .string text) ∨ ∃ index, tag = .number index := by
  cases tag with
  | string text => exact .inl ⟨text, rfl⟩
  | number index => exact .inr ⟨index, rfl⟩
  | _ => cases named

theorem member?_tagKey (members : List (String × Json)) :
    Json.member? tagKey members = (tagsOf members).head? := by
  induction members with
  | nil => rfl
  | cons member members induction =>
      obtain ⟨key, value⟩ := member
      rw [Json.member?_cons, tagsOf_cons, induction]
      by_cases same : key = tagKey
      · simp [same]
      · simp [same, Ne.symm same]

theorem tagsOf_of_readTagOf {members : List (String × Json)} {kind : Option Kind}
    (named : readTagOf members = .ok kind) :
    ∃ tag, tagsOf members = [tag] ∧ readTag tag = .ok kind := by
  rw [readTagOf] at named
  split at named
  · cases named
  · rename_i tag found
    exact ⟨tag, by rw [tagsOf, found]; rfl, named⟩
  · obtain ⟨_, _, rest⟩ := bind_eq_ok_iff.mp named
    cases rest

/-- A value that writes a node has one outermost tag, and it is a string. -/
theorem tagged_of_toNode {value : Json} {node : Node} (written : value.toNode = .ok node) :
    Tagged value := by
  -- A tag that can be read is a string or an index, and an outermost index is refused first.
  have ⟨notIndex, written⟩ : (∀ index, value.outerTag? ≠ some (.number index)) ∧
      value.reading.node = .ok node := by
    rw [Json.toNode] at written
    split at written
    · cases written
    · rename_i notIndex
      exact ⟨notIndex, written⟩
  obtain ⟨part, read, -⟩ := bind_eq_ok_iff.mp written
  cases value with
  | array items =>
      obtain ⟨node, read, -⟩ := bind_pure_eq_ok_iff.mp read
      cases items with
      | nil => cases read
      | cons tag items =>
          obtain ⟨kind, named, -⟩ := bind_eq_ok_iff.mp read
          rcases readTag_eq_ok named with ⟨text, rfl⟩ | ⟨index, rfl⟩
          · exact ⟨text, rfl⟩
          · exact absurd rfl (notIndex index)
  | object members =>
      obtain ⟨node, read, -⟩ := bind_pure_eq_ok_iff.mp read
      obtain ⟨kind, named, -⟩ := bind_eq_ok_iff.mp read
      obtain ⟨tag, found, named⟩ := tagsOf_of_readTagOf named
      rcases readTag_eq_ok named with ⟨text, rfl⟩ | ⟨index, rfl⟩
      · exact ⟨text, found⟩
      · refine absurd ?_ (notIndex index)
        rw [Json.outerTag?, member?_tagKey, found]
        rfl
  | _ => cases read

/-- The node of a document is the node that its value writes. -/
theorem read_eq_ok_iff {text : List Char} {node : Node} :
    read text = .ok node ↔ ∃ value, Json.parse text = .ok value ∧ value.toNode = .ok node := by
  constructor
  · intro loaded
    obtain ⟨⟨value, cursor⟩, outer, rest⟩ := bind_eq_ok_iff.mp loaded
    obtain ⟨held, written, rest⟩ := bind_eq_ok_iff.mp rest
    obtain ⟨_, ends, rfl⟩ := bind_pure_eq_ok_iff.mp rest
    obtain ⟨outer, -⟩ := readOuter_eq_ok_iff.mp outer
    refine ⟨value, ?_, mapError_eq_ok_iff.mp written⟩
    exact bind_eq_ok_iff.mpr ⟨_, outer, bind_eq_ok_iff.mpr ⟨_, ofText_eq_ok_iff.mp ends, rfl⟩⟩
  · rintro ⟨value, parsed, written⟩
    obtain ⟨⟨held, cursor⟩, inner, rest⟩ := bind_eq_ok_iff.mp parsed
    obtain ⟨_, ends, rfl⟩ := bind_pure_eq_ok_iff.mp rest
    have outer := readOuter_eq_ok_iff.mpr ⟨inner, tagged_of_toNode written⟩
    exact bind_eq_ok_iff.mpr ⟨_, outer, bind_eq_ok_iff.mpr ⟨_, mapError_eq_ok_iff.mpr written,
      bind_eq_ok_iff.mpr ⟨_, ofText_eq_ok_iff.mpr ends, rfl⟩⟩⟩

end Document

/-! ## Results -/

namespace Command

/-- A result is a failure to load a node, with the given code. -/
def FailsWith (code : String) (result : Except Failure Node) : Prop :=
  ∃ error : LoadError, result = .error (.load error) ∧ error.code = code

/-- Two results are the same node, or failures with the given code. -/
def Agree (code : String) (first second : Except Failure Node) : Prop :=
  (∃ node, first = .ok node ∧ second = .ok node) ∨ FailsWith code first ∧ FailsWith code second

/-- The options that select the whole document: no pointer, or the empty one. -/
def wholeDocument : List (Option String) :=
  [none, some ""]

theorem agree_of_forall_ok_iff {code : String} {first second : Except Failure Node}
    (firstFails : (∃ node, first = .ok node) ∨ FailsWith code first)
    (secondFails : (∃ node, second = .ok node) ∨ FailsWith code second)
    (same : ∀ node, first = .ok node ↔ second = .ok node) : Agree code first second := by
  rcases firstFails with ⟨node, loaded⟩ | failed
  · exact .inl ⟨node, loaded, (same node).mp loaded⟩
  · rcases secondFails with ⟨node, loaded⟩ | failedToo
    · exact .inl ⟨node, (same node).mpr loaded, loaded⟩
    · exact .inr ⟨failed, failedToo⟩

/-! ## Whole documents -/

theorem load_none_encode (text : List Char) :
    load none (.ok (Utf8.encode text)) = (Load.ofText text).mapError Failure.load := by
  have decoded : Utf8.decode (Utf8.encode text) = .ok text := Utf8.decode_eq_ok_iff.mpr rfl
  change (Load.decode _ >>= Load.ofText).mapError Failure.load = _
  rw [Load.decode, decoded]
  rfl

theorem load_empty_encode (text : List Char) :
    load (some "") (.ok (Utf8.encode text)) =
      match Json.parse text with
      | .ok value => (value.canonical.toNode.mapError LoadError.ofMismatch).mapError Failure.load
      | .error fault => .error (.load (.ofFault text fault)) := by
  have decoded : Utf8.decode (Utf8.encode text) = .ok text := Utf8.decode_eq_ok_iff.mpr rfl
  change loadSelected "" _ = _
  rw [loadSelected, Load.decode, decoded]
  change ((document text).mapError Failure.load >>= _) = _
  rw [document]
  cases Json.parse text with
  | error fault => rfl
  | ok value =>
      change (Load.ofJson value.canonical).mapError Failure.load = _
      rw [Load.ofJson, Json.canonical_canonical]

section Whole

variable {pointer : Option String} (selects : pointer ∈ wholeDocument) {text : List Char}
include selects

theorem none_or_empty_of_mem : pointer = none ∨ pointer = some "" := by
  simpa [wholeDocument] using selects

/-- What is wrong with a text has one code, whatever it is. -/
theorem load_encode_fails :
    (∃ node, load pointer (.ok (Utf8.encode text)) = .ok node) ∨
      FailsWith "EJ0001" (load pointer (.ok (Utf8.encode text))) := by
  rcases none_or_empty_of_mem selects with rfl | rfl
  · rw [load_none_encode, Load.ofText]
    cases Document.read text with
    | ok node => exact .inl ⟨node, rfl⟩
    | error problem => exact .inr ⟨_, rfl, rfl⟩
  · rw [load_empty_encode]
    cases Json.parse text with
    | error fault => exact .inr ⟨_, rfl, rfl⟩
    | ok value =>
        dsimp only
        cases value.canonical.toNode with
        | ok node => exact .inl ⟨node, rfl⟩
        | error mismatch => exact .inr ⟨_, rfl, rfl⟩

theorem exists_parse_of_load {node : Node}
    (loaded : load pointer (.ok (Utf8.encode text)) = .ok node) :
    ∃ value, Json.parse text = .ok value := by
  rcases none_or_empty_of_mem selects with rfl | rfl
  · rw [load_none_encode, mapError_eq_ok_iff] at loaded
    obtain ⟨value, parsed, -⟩ := Document.read_eq_ok_iff.mp (mapError_eq_ok_iff.mp loaded)
    exact ⟨value, parsed⟩
  · rw [load_empty_encode] at loaded
    cases parsed : Json.parse text with
    | ok value => exact ⟨value, rfl⟩
    | error fault => simp [parsed] at loaded

/-- The whole document is the node that its value writes, unless keys are repeated. -/
theorem load_eq_ok_iff {value : Json} {node : Node} (parsed : Json.parse text = .ok value)
    (distinct : value.Distinct) :
    load pointer (.ok (Utf8.encode text)) = .ok node ↔ value.toNode = .ok node := by
  rcases none_or_empty_of_mem selects with rfl | rfl
  · rw [load_none_encode, mapError_eq_ok_iff, Load.ofText, mapError_eq_ok_iff,
      Document.read_eq_ok_iff]
    simp [parsed]
  · rw [load_empty_encode, parsed]
    dsimp only
    rw [mapError_eq_ok_iff, mapError_eq_ok_iff, ← toOption_eq_some_iff,
      Json.toOption_toNode_canonical distinct, toOption_eq_some_iff]

theorem load_not_utf8 {bytes : List UInt8} (notText : ∀ text, bytes ≠ Utf8.encode text) :
    FailsWith "EJ0002" (load pointer (.ok bytes)) := by
  cases decoded : Utf8.decode bytes with
  | ok text => exact absurd (Utf8.decode_eq_ok_iff.mp decoded) (notText text)
  | error flaw =>
      refine ⟨.notUtf8 flaw, ?_, rfl⟩
      rcases none_or_empty_of_mem selects with rfl | rfl
      · change (Load.decode bytes >>= Load.ofText).mapError Failure.load = _
        rw [Load.decode, decoded]
        rfl
      · change loadSelected "" bytes = _
        rw [loadSelected, Load.decode, decoded]
        rfl

end Whole

/-- Bytes that are not UTF-8 fail on both paths with `EJ0002`, and texts that are not JSON with
`EJ0001`. Where no key is repeated both paths give the same node or fail with `EJ0001`, and the
order in which members are written makes no difference on either. -/
theorem load_paths_agree (bytes : List UInt8) :
    ((∀ text, bytes ≠ Utf8.encode text) →
      ∀ pointer ∈ wholeDocument, FailsWith "EJ0002" (load pointer (.ok bytes))) ∧
    ∀ text, bytes = Utf8.encode text →
      ((∀ value, Json.parse text ≠ .ok value) →
        ∀ pointer ∈ wholeDocument, FailsWith "EJ0001" (load pointer (.ok bytes))) ∧
      ∀ value, Json.parse text = .ok value → value.Distinct →
        Agree "EJ0001" (load none (.ok bytes)) (load (some "") (.ok bytes)) ∧
        ∀ otherText other, Json.parse otherText = .ok other → value.Rearranged other →
          ∀ pointer ∈ wholeDocument,
            Agree "EJ0001" (load pointer (.ok bytes))
              (load pointer (.ok (Utf8.encode otherText))) := by
  refine ⟨fun notText pointer selects => load_not_utf8 selects notText, ?_⟩
  rintro text rfl
  refine ⟨fun notJson pointer selects => ?_, fun value parsed distinct => ⟨?_, ?_⟩⟩
  · refine (load_encode_fails selects).resolve_left ?_
    rintro ⟨node, loaded⟩
    obtain ⟨value, parsed⟩ := exists_parse_of_load selects loaded
    exact notJson value parsed
  · have first : none ∈ wholeDocument := by simp [wholeDocument]
    have second : some "" ∈ wholeDocument := by simp [wholeDocument]
    refine agree_of_forall_ok_iff (load_encode_fails first) (load_encode_fails second)
      fun node => ?_
    rw [load_eq_ok_iff first parsed distinct, load_eq_ok_iff second parsed distinct]
  · intro otherText other otherParsed rearranged pointer selects
    refine agree_of_forall_ok_iff (load_encode_fails selects) (load_encode_fails selects)
      fun node => ?_
    rw [load_eq_ok_iff selects parsed distinct,
      load_eq_ok_iff selects otherParsed (rearranged.distinct distinct), ← toOption_eq_some_iff,
      Json.toOption_toNode_rearranged rearranged distinct, toOption_eq_some_iff]

/-- Each case of the agreement occurs: a byte that starts no character, a text that ends too early,
and a node with its tag in front of another member or behind it. -/
theorem load_paths_agree_super :
    let text := Json.compact (.object [("type", .string "Super"), ("at", .null)])
    let permuted := Json.compact (.object [("at", .null), ("type", .string "Super")])
    (∀ pointer ∈ wholeDocument, FailsWith "EJ0002" (load pointer (.ok [0xff]))) ∧
    (∀ pointer ∈ wholeDocument, FailsWith "EJ0001" (load pointer (.ok (Utf8.encode ['['])))) ∧
    Agree "EJ0001" (load none (.ok (Utf8.encode text))) (load (some "") (.ok (Utf8.encode text))) ∧
    ∀ pointer ∈ wholeDocument, Agree "EJ0001" (load pointer (.ok (Utf8.encode text)))
      (load pointer (.ok (Utf8.encode permuted))) := by
  intro text permuted
  have notText : ∀ text, [0xff] ≠ Utf8.encode text := by
    intro text same
    cases Utf8.decode_eq_ok_iff.mpr same
  have notJson : ∀ value, Json.parse ['['] ≠ .ok value := by
    intro value parsed
    cases parsed
  have parsed : Json.parse text = .ok (.object [("type", .string "Super"), ("at", .null)]) := rfl
  have permutedParsed : Json.parse permuted =
      .ok (.object [("at", .null), ("type", .string "Super")]) := rfl
  have distinct : Json.Distinct (.object [("type", .string "Super"), ("at", .null)]) := by
    refine .object (by simp) ?_
    rw [List.forall_mem_cons, List.forall_mem_singleton]
    exact ⟨.string _, .null⟩
  have agree := ((load_paths_agree _).2 text rfl).2 _ parsed distinct
  exact ⟨(load_paths_agree [0xff]).1 notText, ((load_paths_agree _).2 ['['] rfl).1 notJson,
    agree.1, agree.2 permuted _ permutedParsed (.permute (.swap ..))⟩

end Command

end TreeQuery
