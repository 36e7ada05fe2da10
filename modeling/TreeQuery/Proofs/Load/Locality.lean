import TreeQuery.Proofs.Command.Selection
import TreeQuery.Proofs.Context
import TreeQuery.Proofs.Load.Acceptance

/-!
# Loading is local

The gap of a context has an address in every document that is loaded as a tree made from the
context: a pointer that goes through the same members and items. What stands there is loaded on its
own as the node in the gap. When it is replaced by what is loaded as another node, the document is
loaded as the tree with that node in the gap.
-/

namespace TreeQuery

/-! ## Addresses of gaps -/

/-- From a value that writes a part to the value that writes the node in its gap. -/
def OpenPart.pointer {shape : Shape} : OpenPart shape → Json.Pointer
  | .node | .optNode => []
  | .nodes before _ => [before.length.repr]
  | .holes before _ => [before.length.repr]

/-- From an object to the value that writes the node in the gap of its parts. -/
def OpenParts.pointer {slots : List Slot} : OpenParts slots → Json.Pointer
  | @OpenParts.here field _ _ head _ => field.spelling :: head.pointer
  | .later _ tail => tail.pointer

/-- From a document to the value that writes the node in the gap of a tree. -/
def Context.pointer : Context → Json.Pointer
  | [] => []
  | frame :: frames => frame.parts.pointer ++ Context.pointer frames

/-! ## Documents that are spelled out -/

namespace Json

/-- Where a part of some shape is expected, and everywhere inside it, nodes are written as objects,
each with a string as its tag. -/
def IsSpelledOut (value : Json) (shape : Shape) : Prop :=
  ∀ inner innerShape, Relation.ReflTransGen Inside (value, shape) (inner, innerShape) →
    innerShape ∈ [Shape.node, .optNode] → inner ≠ .null →
      ∃ members tag, inner = .object members ∧ lastMember? tagKey members = some (.string tag)

/-- An object with a string as its tag whose members write a node. -/
def Spells (value : Json) (node : Node) : Prop :=
  ∃ members tag, value = .object members ∧ lastMember? tagKey members = some (.string tag) ∧
    node? members = some node

theorem IsSpelledOut.inside {value inner : Json} {shape innerShape : Shape}
    (spelled : value.IsSpelledOut shape) (step : Inside (value, shape) (inner, innerShape)) :
    inner.IsSpelledOut innerShape :=
  fun place placeShape reach => spelled place placeShape (.head step reach)

/-- A node in the place of an optional one is spelled out like any other. -/
theorem IsSpelledOut.node {value : Json} (spelled : value.IsSpelledOut .optNode) :
    value.IsSpelledOut .node := by
  intro inner innerShape reach
  rcases reach.cases_head with same | ⟨place, step, rest⟩
  · obtain ⟨rfl, rfl⟩ := Prod.mk.inj same
    exact fun _ => spelled value .optNode .refl (by simp)
  · cases step with
    | field _ tagged named listed found =>
        exact spelled inner innerShape (.head (.field (by simp) tagged named listed found) rest)

namespace Spells

variable {value : Json} {node : Node} (spells : value.Spells node)
include spells

theorem part?_node : value.part? .node = some (.node node) := by
  obtain ⟨members, tag, rfl, -, found⟩ := spells
  rw [part?_object_node, found]
  rfl

theorem part?_optNode : value.part? .optNode = some (.optNode (some node)) := by
  obtain ⟨members, tag, rfl, -, found⟩ := spells
  rw [part?_object_optNode, found]
  rfl

theorem ofJson : Load.ofJson value = .ok node := by
  rw [Load.ofJson_eq_ok_iff]
  refine ⟨fun index same => ?_, spells.part?_node⟩
  obtain ⟨members, tag, rfl, tagged, -⟩ := spells
  rw [outerTag?_canonical_object, tagged] at same
  cases same

end Spells

theorem part?_eq_ofContent {value : Json} {shape : Shape} {content : shape.Holds Node}
    (yields : (value.part? shape).map Part.content = some content) :
    value.part? shape = some (.ofContent content) := by
  obtain ⟨part, found, rfl⟩ := Option.map_eq_some_iff.mp yields
  rw [found, Part.ofContent_content]

theorem spells_of_part?_node {value : Json} {node : Node} (spelled : value.IsSpelledOut .node)
    (yields : value.part? .node = some (.node node)) : value.Spells node := by
  have notNull : value ≠ .null := by
    rintro rfl
    cases yields
  obtain ⟨members, tag, rfl, tagged⟩ := spelled value .node .refl (by simp) notNull
  rw [part?_object_node, Option.map_eq_some_iff] at yields
  obtain ⟨_, found, ⟨⟩⟩ := yields
  exact ⟨members, tag, rfl, tagged, found⟩

theorem spells_of_part?_optNode {value : Json} {node : Node}
    (spelled : value.IsSpelledOut .optNode)
    (yields : value.part? .optNode = some (.optNode (some node))) : value.Spells node := by
  have notNull : value ≠ .null := by
    rintro rfl
    cases yields
  obtain ⟨members, tag, rfl, tagged⟩ := spelled value .optNode .refl (by simp) notNull
  rw [part?_object_optNode, Option.map_eq_some_iff] at yields
  obtain ⟨_, found, ⟨⟩⟩ := yields
  exact ⟨members, tag, rfl, tagged, found⟩

theorem spells_of_ofJson {value : Json} {node : Node} (spelled : value.IsSpelledOut .node)
    (loaded : Load.ofJson value = .ok node) : value.Spells node :=
  spells_of_part?_node spelled (Load.ofJson_eq_ok_iff.mp loaded).2

theorem spells_unsupported {members : List (String × Json)} {tag : String}
    (tagged : lastMember? tagKey members = some (.string tag))
    (unnamed : ∀ kind : Kind, ¬ kind.IsNamed tag) : (object members).Spells .unsupported :=
  ⟨members, tag, rfl, tagged, node?_of_unnamed tagged unnamed⟩

/-- The members of an object that writes a node in the grammar yield the parts of the node. -/
theorem parts?_of_node? {members : List (String × Json)} {tag : String} {kind : Kind}
    {parts : Parts kind.layout} (tagged : lastMember? tagKey members = some (.string tag))
    (found : node? members = some (.mk kind parts)) :
    kind.IsNamed tag ∧ parts? members kind.layout = some parts := by
  by_cases known : ∃ other : Kind, other.IsNamed tag
  · obtain ⟨other, named⟩ := known
    rw [node?_of_named tagged named, Option.map_eq_some_iff] at found
    obtain ⟨_, yields, ⟨⟩⟩ := found
    exact ⟨named, yields⟩
  · rw [node?_of_unnamed tagged (not_exists.mp known)] at found
    cases found

end Json

/-! ## Gaps in documents -/

open Json

/-- A pointer leads from a value to another one that writes a child. Whatever change there gives
another child, the changed value yields what it should with that child. -/
structure Leads (pointer : Pointer) (value inner : Json) (child : Node)
    (Yields : Json → Node → Prop) : Prop where
  found : pointer.resolve? value = some inner
  spelled : inner.IsSpelledOut .node
  spells : inner.Spells child
  changed : ∀ f other, (f inner).Spells other → Yields (pointer.change f value) other

namespace Leads

variable {value inner : Json} {child : Node} {Yields : Json → Node → Prop}

theorem imp {pointer : Pointer} {Other : Json → Node → Prop}
    (leads : Leads pointer value inner child Yields)
    (weaker : ∀ value node, Yields value node → Other value node) :
    Leads pointer value inner child Other :=
  { leads with changed := fun f other spells => weaker _ _ (leads.changed f other spells) }

/-- No token is needed to get from a node to itself. -/
theorem refl (spelled : value.IsSpelledOut .node) (spells : value.Spells child) :
    Leads [] value value child Spells :=
  ⟨rfl, spelled, spells, fun _ _ changed => changed⟩

/-- A gap in a node that is itself in a gap. -/
theorem append {first second : Pointer} {middle : Json} {node : Node} {plug : Node → Node}
    (outer : Leads first value middle node Yields)
    (below : Leads second middle inner child fun value other => value.Spells (plug other)) :
    Leads (first ++ second) value inner child fun value other => Yields value (plug other) where
  found := by
    rw [Pointer.resolve?_append, outer.found]
    exact below.found
  spelled := below.spelled
  spells := below.spells
  changed := by
    intro f other spells
    rw [Pointer.change_append]
    exact outer.changed _ _ (below.changed f other spells)

end Leads

/-! ### In a list -/

section Lists

variable {α β : Type} {f : α → Option β} {before after : List β} {value : β}

theorem mapM_cons_eq_some_iff {item : α} {items : List α} {values : List β} :
    (item :: items).mapM f = some (value :: values) ↔
      f item = some value ∧ items.mapM f = some values := by
  rw [List.mapM_cons]
  cases f item <;> cases items.mapM f <;> simp

/-- What is at a place among the results comes from an item at the same place. -/
theorem exists_of_mapM_append_cons {items : List α}
    (yields : items.mapM f = some (before ++ value :: after)) :
    ∃ first item last, items = first ++ item :: last ∧ first.length = before.length ∧
      first.mapM f = some before ∧ f item = some value ∧ last.mapM f = some after := by
  induction before generalizing items with
  | nil =>
      cases items with
      | nil => cases yields
      | cons item items =>
          obtain ⟨here, later⟩ := mapM_cons_eq_some_iff.mp yields
          exact ⟨[], item, items, rfl, rfl, rfl, here, later⟩
  | cons earlier before induction =>
      cases items with
      | nil => cases yields
      | cons item items =>
          obtain ⟨here, later⟩ := mapM_cons_eq_some_iff.mp yields
          obtain ⟨first, found, last, rfl, length, yieldsFirst, rest⟩ := induction later
          exact ⟨item :: first, found, last, rfl, congrArg Nat.succ length,
            mapM_cons_eq_some_iff.mpr ⟨here, yieldsFirst⟩, rest⟩

theorem mapM_append_cons {first last : List α} {item : α} (yieldsFirst : first.mapM f = some before)
    (yieldsItem : f item = some value) (yieldsLast : last.mapM f = some after) :
    (first ++ item :: last).mapM f = some (before ++ value :: after) := by
  simp [List.mapM_append, List.mapM_cons, yieldsFirst, yieldsItem, yieldsLast]

end Lists

/-- The digits of its index lead to an item of a list that writes a child, whatever the items yield
besides nodes. -/
theorem exists_leads_item {α : Type} {f : Json → Option α} (held : Node → α) {items : List Json}
    {before after : List α} {child : Node}
    (spelled : ∀ item ∈ items, f item = some (held child) →
      item.IsSpelledOut .node ∧ item.Spells child)
    (yields : ∀ item node, item.Spells node → f item = some (held node))
    (found : items.mapM f = some (before ++ held child :: after)) :
    ∃ inner, Leads [before.length.repr] (.array items) inner child fun value other =>
      ∃ items, value = .array items ∧ items.mapM f = some (before ++ held other :: after) := by
  obtain ⟨first, item, last, rfl, length, yieldsFirst, here, yieldsLast⟩ :=
    exists_of_mapM_append_cons found
  obtain ⟨itemSpelled, spells⟩ := spelled item (by simp) here
  rw [← length]
  refine ⟨item, ?_, itemSpelled, spells, fun change other changed => ?_⟩
  · rw [Pointer.resolve?, Pointer.step?_item]
    rfl
  · rw [Pointer.change, Pointer.changeStep_item]
    exact ⟨_, rfl, mapM_append_cons yieldsFirst (yields _ other changed) yieldsLast⟩

/-! ### In a part -/

theorem OpenPart.exists_leads {shape : Shape} {gap : OpenPart shape} {value : Json} {child : Node}
    (spelled : value.IsSpelledOut shape) (found : value.part? shape = some (gap.plug child)) :
    ∃ inner, Leads gap.pointer value inner child fun value other =>
      value.part? shape = some (gap.plug other) := by
  cases gap with
  | node =>
      have leads := Leads.refl spelled (spells_of_part?_node spelled found)
      exact ⟨value, leads.imp fun _ _ spells => spells.part?_node⟩
  | optNode =>
      have leads := Leads.refl spelled.node (spells_of_part?_optNode spelled found)
      exact ⟨value, leads.imp fun _ _ spells => spells.part?_optNode⟩
  | nodes before after =>
      cases value with
      | array items =>
          rw [part?_array_nodes, Option.map_eq_some_iff] at found
          obtain ⟨_, found, ⟨⟩⟩ := found
          have held : ∀ item ∈ items, (item.part? .node).map Part.content = some child →
              item.IsSpelledOut .node ∧ item.Spells child := by
            intro item present content
            have itemSpelled := spelled.inside (.node present)
            exact ⟨itemSpelled, spells_of_part?_node itemSpelled (part?_eq_ofContent content)⟩
          obtain ⟨inner, leads⟩ := exists_leads_item (fun node : Node => node) held
            (fun item node spells => congrArg (Option.map Part.content) spells.part?_node) found
          refine ⟨inner, leads.imp ?_⟩
          rintro _ other ⟨items, rfl, yields⟩
          rw [part?_array_nodes, yields]
          rfl
      | _ => cases found
  | holes before after =>
      cases value with
      | array items =>
          rw [part?_array_holes, Option.map_eq_some_iff] at found
          obtain ⟨_, found, ⟨⟩⟩ := found
          have held : ∀ item ∈ items, (item.part? .optNode).map Part.content = some (some child) →
              item.IsSpelledOut .node ∧ item.Spells child := by
            intro item present content
            have itemSpelled := spelled.inside (.hole present)
            exact ⟨itemSpelled.node,
              spells_of_part?_optNode itemSpelled (part?_eq_ofContent content)⟩
          obtain ⟨inner, leads⟩ := exists_leads_item some held
            (fun item node spells => congrArg (Option.map Part.content) spells.part?_optNode) found
          refine ⟨inner, leads.imp ?_⟩
          rintro _ other ⟨items, rfl, yields⟩
          rw [part?_array_holes, yields]
          rfl
      | _ => cases found

/-! ### In an object -/

theorem parts?_congr {members others : List (String × Json)} {slots : List Slot}
    (same : ∀ key ∈ slotKeys slots, lastMember? key others = lastMember? key members) :
    parts? others slots = parts? members slots := by
  induction slots with
  | nil => rfl
  | cons slot slots induction =>
      obtain ⟨here, later⟩ := List.forall_mem_cons.mp same
      rw [parts?, parts?, here, induction later]

theorem parts?_cons_eq_some_iff {members : List (String × Json)} {field : Field} {shape : Shape}
    {slots : List Slot} {head : Part shape} {tail : Parts slots} :
    parts? members (⟨field, shape⟩ :: slots) = some (.cons head tail) ↔
      placePart? shape (lastMember? field.spelling members) = some head ∧
        parts? members slots = some tail := by
  rw [parts?]
  constructor
  · intro yields
    obtain ⟨part, first, others⟩ := Option.bind_eq_some_iff.mp yields
    obtain ⟨rest, others, same⟩ := Option.map_eq_some_iff.mp others
    cases same
    exact ⟨first, others⟩
  · rintro ⟨first, others⟩
    rw [first, others]
    rfl

/-- Only one member of an object has to do with a gap in its parts. -/
theorem OpenParts.exists_slot {slots : List Slot} (gap : OpenParts slots)
    (distinct : (slotKeys slots).Nodup) :
    ∃ (field : Field) (shape : Shape) (inner : OpenPart shape),
      ⟨field, shape⟩ ∈ slots ∧ gap.pointer = field.spelling :: inner.pointer ∧
      ∀ members child, parts? members slots = some (gap.plug child) →
        placePart? shape (lastMember? field.spelling members) = some (inner.plug child) ∧
        ∀ others other,
          (∀ key, key ≠ field.spelling → lastMember? key others = lastMember? key members) →
          placePart? shape (lastMember? field.spelling others) = some (inner.plug other) →
            parts? others slots = some (gap.plug other) := by
  induction gap with
  | @here field shape slots head tail =>
      obtain ⟨fresh, -⟩ := List.nodup_cons.mp distinct
      refine ⟨field, shape, head, List.mem_cons_self, rfl, fun members child yields => ?_⟩
      obtain ⟨first, rest⟩ := parts?_cons_eq_some_iff.mp yields
      refine ⟨first, fun others other same changed => ?_⟩
      refine parts?_cons_eq_some_iff.mpr ⟨changed, ?_⟩
      rw [parts?_congr fun key present => same key ?_, rest]
      rintro rfl
      exact fresh present
  | @later field shape slots head tail induction =>
      obtain ⟨fresh, distinct⟩ := List.nodup_cons.mp distinct
      obtain ⟨inField, inShape, inner, listed, pointer, isolated⟩ := induction distinct
      refine ⟨inField, inShape, inner, List.mem_cons_of_mem _ listed, pointer, ?_⟩
      intro members child yields
      obtain ⟨first, rest⟩ := parts?_cons_eq_some_iff.mp yields
      obtain ⟨place, rebuild⟩ := isolated members child rest
      refine ⟨place, fun others other same changed => ?_⟩
      refine parts?_cons_eq_some_iff.mpr ⟨?_, rebuild others other same changed⟩
      rw [same field.spelling, first]
      intro equal
      have present : field.spelling ∈ slotKeys slots := by
        rw [equal]
        exact List.mem_map_of_mem listed
      exact fresh present

/-- A missing member leaves no room for a gap. -/
theorem OpenPart.exists_of_placePart? {shape : Shape} {gap : OpenPart shape} {place : Option Json}
    {child : Node} (found : placePart? shape place = some (gap.plug child)) :
    ∃ value, place = some value ∧ value.part? shape = some (gap.plug child) := by
  cases place with
  | some value => exact ⟨value, rfl, found⟩
  | none =>
      cases gap with
      | node | optNode => cases found
      | nodes before after =>
          have empty := Part.nodes.inj (Option.some.inj found)
          exact absurd empty.symm (by simp)
      | holes before after =>
          have empty := Part.holes.inj (Option.some.inj found)
          exact absurd empty.symm (by simp)

theorem Field.spelling_ne_tagKey (field : Field) : field.spelling ≠ tagKey := by
  cases field <;> decide

/-- Where no key is repeated, a gap in a node has its address in the object that writes the node. -/
theorem Frame.exists_leads {frame : Frame} {value : Json} {child : Node} (distinct : value.Distinct)
    (spelled : value.IsSpelledOut .node) (spells : value.Spells (frame.plug child)) :
    ∃ inner, Leads frame.parts.pointer value inner child fun value other =>
      value.Spells (frame.plug other) := by
  obtain ⟨members, tag, rfl, tagged, found⟩ := spells
  obtain ⟨named, parts⟩ := parts?_of_node? tagged found
  obtain ⟨field, shape, gap, listed, pointer, isolated⟩ :=
    frame.parts.exists_slot (Kind.nodup_slotKeys frame.kind)
  obtain ⟨place, rebuild⟩ := isolated members child parts
  obtain ⟨held, member, yields⟩ := OpenPart.exists_of_placePart? place
  have heldSpelled := spelled.inside (.field (by simp) tagged named listed member)
  obtain ⟨inner, leads⟩ := OpenPart.exists_leads heldSpelled yields
  refine ⟨inner, ?_, leads.spelled, leads.spells, fun f other changed => ?_⟩
  · cases distinct with
    | object keys _ =>
        rw [pointer, Pointer.resolve?, Pointer.step?, ← lastMember?_eq_member? keys, member]
        exact leads.found
  · -- Only the member with the gap changes: the tag and the other parts are looked up as before.
    rw [pointer, Pointer.change, Pointer.changeStep]
    let others := Pointer.changeMember field.spelling (gap.pointer.change f) members
    have same : ∀ key, key ≠ field.spelling → lastMember? key others = lastMember? key members :=
      fun key apart => (Pointer.lastMember?_changeMember ..).trans (if_neg apart)
    have here : lastMember? field.spelling others = some (gap.pointer.change f held) := by
      rw [Pointer.lastMember?_changeMember, if_pos rfl, member]
      rfl
    have otherTagged : lastMember? tagKey others = some (.string tag) :=
      (same tagKey field.spelling_ne_tagKey.symm).trans tagged
    have otherParts : parts? others frame.kind.layout = some (frame.parts.plug other) := by
      refine rebuild others other same ?_
      rw [here]
      exact leads.changed f other changed
    refine ⟨others, tag, rfl, otherTagged, ?_⟩
    rw [node?_of_named otherTagged named, otherParts]
    rfl

theorem Context.exists_leads {context : Context} {value : Json} {child : Node}
    (distinct : value.Distinct) (spelled : value.IsSpelledOut .node)
    (spells : value.Spells (context.plug child)) :
    ∃ inner, Leads context.pointer value inner child fun value other =>
      value.Spells (context.plug other) := by
  induction context generalizing value with
  | nil => exact ⟨value, Leads.refl spelled spells⟩
  | cons frame frames induction =>
      obtain ⟨middle, outer⟩ := Frame.exists_leads distinct spelled spells
      have middleDistinct := Pointer.distinct_of_resolve? distinct outer.found
      obtain ⟨inner, below⟩ := induction middleDistinct outer.spelled outer.spells
      exact ⟨inner, outer.append below⟩

/-! ## Loading -/

/-- A pointer selects in a text what it selects in the value that the text writes. -/
theorem Command.load_selected {text : List Char} {document value : Json} {pointer : String}
    {tokens : Pointer} {node : Node} (distinct : document.Distinct)
    (written : Command.document text = .ok document.canonical)
    (parsed : Pointer.parse? pointer = some tokens) (found : tokens.resolve? document = some value)
    (loaded : Load.ofJson value = .ok node) :
    Command.load (some pointer) (.ok (Utf8.encode text)) = .ok node := by
  have selected : Command.select? pointer document.canonical = some value.canonical := by
    rw [Command.select?, parsed, Option.bind_some, Pointer.resolve?_canonical tokens distinct,
      found]
    rfl
  have loadedCanonical : Load.ofJson value.canonical = .ok node := by
    rw [Load.ofJson, canonical_canonical]
    exact loaded
  rw [Command.load_encode pointer written, selected]
  exact mapError_eq_ok_iff.mpr loadedCanonical

/-- Let a document be loaded as a tree that is made from a context and a node in its gap; every
descendant of the tree is such a node. Then the pointer of the context leads to a value that is
loaded as that node, both on its own and when the pointer is given to a command. When the value is
replaced by an object with an unknown tag, the document is loaded as the tree with an unsupported
node in the gap. -/
theorem Load.ofJson_in_context {document : Json} {tree : Node} (distinct : document.Distinct)
    (spelled : document.IsSpelledOut .node) (loaded : ofJson document = .ok tree) :
    (∀ steps child, Trail tree steps child →
      ∃ context : Context, context.length = steps.length ∧ context.plug child = tree) ∧
    ∀ (context : Context) (child : Node), context.plug child = tree →
      (∃ value, context.pointer.resolve? document = some value ∧ ofJson value = .ok child) ∧
      (∃ pointer, Pointer.parse? pointer = some context.pointer) ∧
      (∀ text pointer, Command.document text = .ok document.canonical →
        Pointer.parse? pointer = some context.pointer →
          Command.load (some pointer) (.ok (Utf8.encode text)) = .ok child) ∧
      ∀ members tag, lastMember? tagKey members = some (.string tag) →
        (∀ kind : Kind, ¬ kind.IsNamed tag) →
          ofJson (context.pointer.replace (.object members) document) =
            .ok (context.plug .unsupported) := by
  refine ⟨fun steps child trail => trail.exists_context, ?_⟩
  rintro context child rfl
  obtain ⟨inner, leads⟩ := Context.exists_leads distinct spelled (spells_of_ofJson spelled loaded)
  have written : ∃ pointer, Pointer.parse? pointer = some context.pointer :=
    ⟨context.pointer.write, Pointer.parse?_write context.pointer⟩
  refine ⟨⟨inner, leads.found, leads.spells.ofJson⟩, written, ?_, ?_⟩
  · intro text pointer written parsed
    exact Command.load_selected distinct written parsed leads.found leads.spells.ofJson
  · intro members tag tagged unnamed
    exact (leads.changed _ .unsupported (spells_unsupported tagged unnamed)).ofJson

/-- A value is spelled out if it is an object with a string as its tag, or no node is expected, and
if what it directly holds is spelled out. -/
theorem Json.isSpelledOut_of_inside {value : Json} {shape : Shape}
    (here : shape ∈ [Shape.node, .optNode] → value ≠ .null →
      ∃ members tag, value = .object members ∧ lastMember? tagKey members = some (.string tag))
    (inside : ∀ inner innerShape, Inside (value, shape) (inner, innerShape) →
      inner.IsSpelledOut innerShape) : value.IsSpelledOut shape := by
  intro inner innerShape reach
  rcases reach.cases_head with same | ⟨⟨first, firstShape⟩, step, rest⟩
  · obtain ⟨rfl, rfl⟩ := Prod.mk.inj same
    exact here
  · exact inside first firstShape step inner innerShape rest

theorem Json.isSpelledOut_object (kind : Kind) {members : List (String × Json)} {shape : Shape}
    (tagged : lastMember? tagKey members = some (.string kind.tag))
    (isNode : shape ∈ [Shape.node, .optNode])
    (held : ∀ slot ∈ kind.layout, ∀ value,
      lastMember? slot.field.spelling members = some value → value.IsSpelledOut slot.shape) :
    (object members).IsSpelledOut shape := by
  refine isSpelledOut_of_inside (fun _ _ => ⟨members, kind.tag, rfl, tagged⟩) ?_
  intro inner innerShape step
  cases step with
  | @field _ _ tag _ _ _ _ otherTagged otherNamed listed found =>
      have sameTag : kind.tag = tag :=
        Json.string.inj (Option.some.inj (tagged.symm.trans otherTagged))
      obtain rfl := Kind.eq_of_isNamed (.inl sameTag.symm) otherNamed
      exact held _ listed inner found
  | chunkText => simp at isNode

/-- The argument of the spread element behind a hole is at `/elements/1/argument`. -/
theorem Load.ofJson_in_context_array :
    let document : Json := .object [
      ("elements", .array [
        .null,
        .object [("argument", .object [("type", .string "Super")]),
          ("type", .string "SpreadElement")]]),
      ("type", .string "ArrayExpression")]
    let spread (node : Node) : Node :=
      .make .arrayExpression ([none, some (.make .spreadElement (node, ()))], ())
    Load.ofJson document = .ok (spread (.make .super ())) ∧
    Command.load (some "/elements/1/argument") (.ok (Utf8.encode (Json.compact document))) =
      .ok (.make .super ()) ∧
    Load.ofJson (.object [
        ("elements", .array [
          .null,
          .object [("argument", .object [("type", .string "Pipe"), ("name", .null)]),
            ("type", .string "SpreadElement")]]),
        ("type", .string "ArrayExpression")]) = .ok (spread .unsupported) := by
  intro document spread
  have distinct : document.Distinct := by
    refine .object (by simp) (List.forall_mem_cons.mpr ⟨.array ?_, ?_⟩)
    · refine List.forall_mem_cons.mpr ⟨.null, List.forall_mem_singleton.mpr (.object (by simp) ?_)⟩
      have super : Json.Distinct (.object [("type", .string "Super")]) :=
        .object (by simp) (List.forall_mem_singleton.mpr (.string _))
      exact List.forall_mem_cons.mpr ⟨super, List.forall_mem_singleton.mpr (.string _)⟩
    · exact List.forall_mem_singleton.mpr (.string _)
  have spelled : document.IsSpelledOut .node := by
    have super : Json.IsSpelledOut (.object [("type", .string "Super")]) .node :=
      Json.isSpelledOut_object .super rfl (by simp) (List.forall_mem_nil _)
    have element : Json.IsSpelledOut (.object [("argument", .object [("type", .string "Super")]),
        ("type", .string "SpreadElement")]) .optNode := by
      refine Json.isSpelledOut_object .spreadElement rfl (by simp) ?_
      refine List.forall_mem_singleton.mpr ?_
      rintro _ ⟨⟩
      exact super
    have hole : Json.IsSpelledOut .null .optNode :=
      Json.isSpelledOut_of_inside (fun _ notNull => absurd rfl notNull) nofun
    refine Json.isSpelledOut_object .arrayExpression rfl (by simp) ?_
    refine List.forall_mem_singleton.mpr ?_
    rintro _ ⟨⟩
    refine Json.isSpelledOut_of_inside (by simp) ?_
    intro item innerShape step
    cases step with
    | hole present =>
        rcases List.mem_cons.mp present with rfl | last
        · exact hole
        · obtain rfl := List.mem_singleton.mp last
          exact element
  have loaded : Load.ofJson document = .ok (spread (.make .super ())) := rfl
  have written : Command.document (Json.compact document) = .ok document.canonical := by cbv
  have unnamed : ∀ kind : Kind, ¬ kind.IsNamed "Pipe" := by
    rw [← Kind.ofTag?_eq_none_iff]
    rfl
  let context : Context := [⟨.arrayExpression, .here (.holes [none] []) .nil⟩,
    ⟨.spreadElement, .here .node .nil⟩]
  obtain ⟨-, -, selected, replaced⟩ :=
    (Load.ofJson_in_context distinct spelled loaded).2 context (.make .super ()) rfl
  exact ⟨loaded, selected _ _ written (by decide), replaced _ "Pipe" rfl unnamed⟩

end TreeQuery
