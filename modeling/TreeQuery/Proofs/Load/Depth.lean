import TreeQuery.Proofs.Command.Selection
import TreeQuery.Proofs.Json.Reader
import TreeQuery.Proofs.Load.Paths
import TreeQuery.Proofs.Load.Yield

/-!
# How deep a loaded tree is

Every node of a loaded tree is written with a bracket of its own, as an object or as a list, and the
bracket of a node stands inside that of its parent. So no chain of nodes is longer than the brackets
of the document are nested, and a text whose brackets are nested too deep is refused.
-/

namespace TreeQuery

/-! ## Nested brackets -/

namespace Json

mutual

/-- How many brackets of a value stand inside one another. -/
def nesting : Json → Nat
  | .array items => nestingOfItems items + 1
  | .object members => nestingOfMembers members + 1
  | .null | .bool _ | .number _ | .string _ => 0

/-- The greatest nesting in a list of values. -/
def nestingOfItems : List Json → Nat
  | [] => 0
  | item :: items => max item.nesting (nestingOfItems items)

/-- The greatest nesting in a list of members. -/
def nestingOfMembers : List (String × Json) → Nat
  | [] => 0
  | (_, value) :: members => max value.nesting (nestingOfMembers members)

end

theorem nestingOfItems_le_iff {items : List Json} {depth : Nat} :
    nestingOfItems items ≤ depth ↔ ∀ item ∈ items, item.nesting ≤ depth := by
  induction items with
  | nil => simp [nestingOfItems]
  | cons item items induction => simp [nestingOfItems, induction]

theorem nestingOfMembers_le_iff {members : List (String × Json)} {depth : Nat} :
    nestingOfMembers members ≤ depth ↔ ∀ member ∈ members, member.2.nesting ≤ depth := by
  induction members with
  | nil => simp [nestingOfMembers]
  | cons member members induction => simp [nestingOfMembers, induction]

theorem nesting_array_le_iff {items : List Json} {depth : Nat} :
    (array items).nesting ≤ depth ↔ 0 < depth ∧ ∀ item ∈ items, item.nesting < depth := by
  rw [nesting, Nat.add_one_le_iff]
  cases depth with
  | zero => simp
  | succ depth => simp only [Nat.lt_succ_iff, nestingOfItems_le_iff, Nat.zero_le, true_and]

theorem nesting_object_le_iff {members : List (String × Json)} {depth : Nat} :
    (object members).nesting ≤ depth ↔
      0 < depth ∧ ∀ member ∈ members, member.2.nesting < depth := by
  rw [nesting, Nat.add_one_le_iff]
  cases depth with
  | zero => simp
  | succ depth => simp only [Nat.lt_succ_iff, nestingOfMembers_le_iff, Nat.zero_le, true_and]

/-- Sorting members and dropping repeated ones adds no brackets. -/
theorem nesting_canonical_le {value : Json} {depth : Nat} (nested : value.nesting ≤ depth) :
    value.canonical.nesting ≤ depth := by
  induction value using induction_on_values generalizing depth with
  | array items induction =>
      obtain ⟨positive, inside⟩ := nesting_array_le_iff.mp nested
      rw [canonical, canonicalItems_eq_map, nesting_array_le_iff]
      refine ⟨positive, List.forall_mem_map.mpr fun item present => ?_⟩
      have bound := induction item present (Nat.le_sub_one_of_lt (inside item present))
      omega
  | object members induction =>
      obtain ⟨positive, inside⟩ := nesting_object_le_iff.mp nested
      rw [canonical, nesting_object_le_iff]
      refine ⟨positive, fun member present => ?_⟩
      obtain ⟨value, inMembers, same⟩ := exists_of_mem_canonicalMembers present
      have bound : value.canonical.nesting ≤ depth - 1 :=
        induction _ inMembers (Nat.le_sub_one_of_lt (inside _ inMembers))
      rw [same]
      omega
  | _ => simpa [canonical] using nested

/-- A pointer selects nothing that is nested deeper than the whole. -/
theorem nesting_of_resolve? {pointer : Pointer} {value inner : Json} {depth : Nat}
    (nested : value.nesting ≤ depth) (found : pointer.resolve? value = some inner) :
    inner.nesting ≤ depth :=
  Pointer.holds_of_resolve? (fun nested item present =>
      ((nesting_array_le_iff.mp nested).2 item present).le)
    (fun nested member present => ((nesting_object_le_iff.mp nested).2 member present).le)
    nested found

/-! ## Texts -/

theorem nesting_of_readScalar {cursor : Cursor} {reached : Json × Cursor}
    (read : readScalar cursor = .ok reached) : reached.1.nesting = 0 := by
  rcases cases_of_readScalar read with null | ⟨_, bool⟩ | ⟨_, string⟩ | ⟨_, _, _, -, number⟩
  · rw [null, nesting]
  · rw [bool, nesting]
  · rw [string, nesting]
  · rw [number, nesting]

theorem nesting_of_readValue {depth : Nat} {cursor : Cursor} {reached : Json × Cursor}
    (read : readValue depth cursor = .ok reached) : reached.1.nesting ≤ depth :=
  holds_of_readValue (fun depth value => value.nesting ≤ depth)
    (fun read => (nesting_of_readScalar read).trans_le (Nat.zero_le _))
    (fun inside => nesting_array_le_iff.mpr
      ⟨Nat.succ_pos _, fun item present => Nat.lt_succ_of_le (inside item present)⟩)
    (fun inside => nesting_object_le_iff.mpr
      ⟨Nat.succ_pos _, fun member present => Nat.lt_succ_of_le (inside member present)⟩) read

/-- A text that nests deeper than the limit is refused. -/
theorem nesting_of_parse {text : List Char} {value : Json} (parsed : parse text = .ok value) :
    value.nesting ≤ depthLimit := by
  obtain ⟨cursor, read⟩ := exists_readValue_of_parse parsed
  exact nesting_of_readValue read

end Json

/-! ## Chains of nodes -/

/-- Every chain of nodes from a node downward has at most `depth` nodes. -/
def Node.IsWithin (depth : Nat) (node : Node) : Prop :=
  ∀ steps inner, Trail node steps inner → steps.length + 1 ≤ depth

/-- Every chain of nodes from a node in a part downward has at most `depth` nodes. -/
def Part.IsWithin (depth : Nat) (shape : Shape) (part : Part shape) : Prop :=
  ∀ child ∈ part.held, child.IsWithin depth

namespace Node

theorem IsWithin.mono {depth greater : Nat} {node : Node} (within : node.IsWithin depth)
    (le : depth ≤ greater) : node.IsWithin greater :=
  fun steps inner trail => (within steps inner trail).trans le

theorem isWithin_unsupported {depth : Nat} (positive : 0 < depth) :
    unsupported.IsWithin depth := by
  intro steps inner trail
  rcases trail.cases_first with ⟨rfl, -⟩ | ⟨_, _, _, _, _, same, -⟩
  · exact positive
  · cases same

end Node

theorem Parts.isWithin_of_all {depth : Nat} {slots : List Slot} {parts : Parts slots}
    (all : parts.All (Part.IsWithin depth)) {field : Field} {child : Node}
    (member : (field, child) ∈ parts.children) : child.IsWithin depth := by
  induction slots with
  | nil => cases parts; cases member
  | cons slot slots induction =>
      cases parts with
      | cons head tail =>
          rcases Parts.mem_children_cons.mp member with ⟨-, present⟩ | later
          · exact all.1 child present
          · exact induction all.2 later

/-- A node adds one to the chains of its children. -/
theorem Node.isWithin_mk {depth : Nat} {kind : Kind} {parts : Parts kind.layout}
    (all : parts.All (Part.IsWithin depth)) : (Node.mk kind parts).IsWithin (depth + 1) := by
  intro steps inner trail
  rcases trail.cases_first with ⟨rfl, -⟩ | ⟨_, _, field, child, later, same, member, rfl, lower⟩
  · simp
  · cases same
    have bound := Parts.isWithin_of_all all member later inner lower
    simp only [List.length_append, List.length_singleton]
    omega

/-- A bracket puts a node around what stands inside it. -/
theorem Node.builds_isWithin (depth : Nat) :
    Builds (IsWithin depth) (IsWithin (depth + 1)) fun _ => True where
  null := trivial
  unsupported := isWithin_unsupported depth.succ_pos
  node all := isWithin_mk (all.mono fun carries => carries.nodes)
  weaken within := within.mono depth.le_succ

namespace Json

/-- A value yields no node, or nodes no deeper than its brackets. -/
theorem ensures_reading {value : Json} {depth : Nat} (nested : value.nesting ≤ depth) :
    value.reading.Ensures (Part.Carries (Node.IsWithin depth) fun _ => True) := by
  induction value using induction_on_values generalizing depth with
  | array items induction =>
      obtain ⟨positive, inside⟩ := nesting_array_le_iff.mp nested
      obtain ⟨depth, rfl⟩ := Nat.exists_eq_add_one.mpr positive
      apply Reading.ensures_array (Node.builds_isWithin depth) trivial
      rw [itemReadings_eq_map]
      exact List.forall_mem_map.mpr fun item present =>
        induction item present (Nat.le_of_lt_succ (inside item present))
  | object members induction =>
      obtain ⟨positive, inside⟩ := nesting_object_le_iff.mp nested
      obtain ⟨depth, rfl⟩ := Nat.exists_eq_add_one.mpr positive
      apply Reading.ensures_object (Node.builds_isWithin depth) trivial
      rw [memberReadings_eq_map]
      exact List.forall_mem_map.mpr fun member present =>
        induction member present (Nat.le_of_lt_succ (inside member present))
  | null => exact Reading.ensures_null trivial
  | bool => exact Reading.ensures_bool trivial
  | number => exact Reading.ensures_number trivial
  | string => exact Reading.ensures_string trivial

theorem isWithin_of_toNode {value : Json} {depth : Nat} {node : Node}
    (nested : value.nesting ≤ depth) (written : value.toNode = .ok node) : node.IsWithin depth := by
  rw [toNode] at written
  split at written
  · cases written
  · obtain ⟨⟨node⟩, read, rfl⟩ := bind_pure_eq_ok_iff.mp written
    exact (ensures_reading nested .node _ read).nodes node List.mem_cons_self

end Json

/-! ## The routes to a loaded tree -/

theorem Load.isWithin_of_ofText {text : List Char} {node : Node}
    (loaded : Load.ofText text = .ok node) : node.IsWithin Json.depthLimit := by
  obtain ⟨value, parsed, written⟩ :=
    Document.read_eq_ok_iff.mp (mapError_eq_ok_iff.mp loaded)
  exact Json.isWithin_of_toNode (Json.nesting_of_parse parsed) written

theorem Load.isWithin_of_ofBytes {bytes : List UInt8} {node : Node}
    (loaded : Load.ofBytes bytes = .ok node) : node.IsWithin Json.depthLimit := by
  obtain ⟨text, -, loaded⟩ := bind_eq_ok_iff.mp loaded
  exact Load.isWithin_of_ofText loaded

/-- What a command loads from behind a pointer is the canonical form of what the pointer selects. -/
theorem Command.exists_value_of_loadSelected {pointer : String} {bytes : List UInt8} {node : Node}
    (loaded : Command.loadSelected pointer bytes = .ok node) :
    ∃ (text : List Char) (whole inner : Json) (tokens : Json.Pointer),
      Json.parse text = .ok whole ∧ tokens.resolve? whole.canonical = some inner ∧
        inner.canonical.toNode = .ok node := by
  obtain ⟨text, -, loaded⟩ := bind_eq_ok_iff.mp loaded
  obtain ⟨document, isDocument, loaded⟩ := bind_eq_ok_iff.mp loaded
  obtain ⟨whole, parsed, rfl⟩ := exists_parse_of_document (mapError_eq_ok_iff.mp isDocument)
  split at loaded
  · rename_i inner found
    obtain ⟨tokens, -, found⟩ := Option.bind_eq_some_iff.mp found
    exact ⟨text, whole, inner, tokens, parsed, found,
      mapError_eq_ok_iff.mp (mapError_eq_ok_iff.mp loaded)⟩
  · cases loaded

theorem Command.isWithin_of_loadSelected {pointer : String} {bytes : List UInt8} {node : Node}
    (loaded : Command.loadSelected pointer bytes = .ok node) :
    node.IsWithin Json.depthLimit := by
  obtain ⟨text, whole, inner, tokens, parsed, found, written⟩ :=
    exists_value_of_loadSelected loaded
  have nested : inner.nesting ≤ Json.depthLimit :=
    Json.nesting_of_resolve? (Json.nesting_canonical_le (Json.nesting_of_parse parsed)) found
  exact Json.isWithin_of_toNode (Json.nesting_canonical_le nested) written

/-- A node is loaded from a text, from bytes, from what a reader delivers, or by a command. -/
def Node.IsLoaded (node : Node) : Prop :=
  (∃ text, Load.ofText text = .ok node) ∨ (∃ bytes, Load.ofBytes bytes = .ok node) ∨
    (∃ delivery, Load.ofDelivery delivery = .ok node) ∨
      ∃ pointer delivery, Command.load pointer delivery = .ok node

/-- On every route to a loaded tree, a chain of nodes from its root downward has fewer than 128
nodes. -/
theorem Load.chain_lt_of_isLoaded {node inner : Node} {steps : List Step} (loaded : node.IsLoaded)
    (trail : Trail node steps inner) : steps.length + 1 < 128 := by
  have within : node.IsWithin Json.depthLimit := by
    rcases loaded with ⟨text, loaded⟩ | ⟨bytes, loaded⟩ | ⟨delivery, loaded⟩ |
      ⟨pointer, delivery, loaded⟩
    · exact isWithin_of_ofText loaded
    · exact isWithin_of_ofBytes loaded
    · obtain ⟨bytes, -, loaded⟩ := bind_eq_ok_iff.mp loaded
      exact isWithin_of_ofBytes loaded
    · obtain ⟨bytes, -, loaded⟩ := bind_eq_ok_iff.mp loaded
      cases pointer with
      | none => exact isWithin_of_ofBytes (mapError_eq_ok_iff.mp loaded)
      | some pointer => exact Command.isWithin_of_loadSelected loaded
  exact Nat.lt_succ_of_le (within steps inner trail)

/-- A statement written as a list stands in a list slot of an object and holds an object. -/
theorem Load.chain_lt_of_program :
    let value : Json := .object [("type", .string "Program"),
      ("body", .array [.array [.string "ThrowStatement", .object [("type", .string "Super")]]])]
    let leaf := Node.make .super ()
    let statement := Node.make .throwStatement (leaf, ())
    let program := Node.make .program ([statement], .script, ())
    let outer : Step := ⟨.program, .ofRow ([statement], .script, ()), .body, statement⟩
    let inner : Step := ⟨.throwStatement, .ofRow (leaf, ()), .argument, leaf⟩
    Load.ofText value.compact = .ok program ∧ Trail program [inner, outer] leaf ∧
      [inner, outer].length + 1 < 128 := by
  intro value leaf statement program outer inner
  have parsed : Json.parse value.compact = .ok value := by cbv
  have written : value.toNode = .ok program := rfl
  have loaded : Load.ofText value.compact = .ok program :=
    mapError_eq_ok_iff.mpr (Document.read_eq_ok_iff.mpr ⟨value, parsed, written⟩)
  have trail : Trail program [inner, outer] leaf :=
    (Trail.here.down List.mem_cons_self).down List.mem_cons_self
  exact ⟨loaded, trail, chain_lt_of_isLoaded (.inl ⟨_, loaded⟩) trail⟩

end TreeQuery
