import TreeQuery.Proofs.Load.Order
import TreeQuery.Proofs.Trail

/-!
# What readings yield

The parts of a record are what the readings of its members or items yield, or what omitted ones
stand for. So a property that passes from the parts of a node to the node, and from the nodes of a
list to the list, passes from what a value holds to what the value yields.
-/

namespace TreeQuery

/-! ## Records -/

theorem Shape.absent?_of_default? {shape : Shape} {part : Part shape}
    (default : shape.default? = some part) : shape.absent? = some part := by
  cases shape <;> first | exact default | cases default

section Records

variable {holds : (shape : Shape) → Part shape → Prop}

/-- Whatever a reading yields has a property. -/
def Reading.Ensures (holds : (shape : Shape) → Part shape → Prop) (reading : Reading) : Prop :=
  ∀ shape part, reading shape = .ok part → holds shape part

/-- All parts have a property. -/
def Parts.All (holds : (shape : Shape) → Part shape → Prop) {slots : List Slot} :
    Parts slots → Prop
  | .nil => True
  | @Parts.cons _ shape _ head tail => holds shape head ∧ tail.All holds

theorem Parts.All.mono {weaker : (shape : Shape) → Part shape → Prop} {slots : List Slot}
    {parts : Parts slots} (all : parts.All holds)
    (imp : ∀ {shape : Shape} {part : Part shape}, holds shape part → weaker shape part) :
    parts.All weaker := by
  induction slots with
  | nil => cases parts; trivial
  | cons slot slots induction =>
      cases parts
      exact ⟨imp all.1, induction all.2⟩

/-- All parts filled so far have a property. -/
def Draft.All (holds : (shape : Shape) → Part shape → Prop) :
    {slots : List Slot} → Draft slots → Prop
  | [], () => True
  | slot :: _, (held, rest) => (∀ part ∈ held, holds slot.shape part) ∧ rest.All holds

namespace Draft

theorem all_empty (slots : List Slot) : (empty slots).All holds := by
  induction slots with
  | nil => trivial
  | cons slot slots induction => exact ⟨nofun, induction⟩

theorem all_put {slots : List Slot} {key : String} {reading : Reading} {draft next : Draft slots}
    (all : draft.All holds) (ensures : reading.Ensures holds)
    (filled : draft.put key reading = .ok next) : next.All holds := by
  induction slots with
  | nil => trivial
  | cons slot slots induction =>
      obtain ⟨held, rest⟩ := draft
      by_cases named : slot.field.spelling = key
      · cases held with
        | some _ => exact absurd filled (by rw [put.eq_def]; simp [named])
        | none =>
            rw [put_named named] at filled
            obtain ⟨part, read, rfl⟩ := bind_pure_eq_ok_iff.mp filled
            refine ⟨?_, all.2⟩
            rintro _ ⟨⟩
            exact ensures slot.shape part read
      · rw [put_unnamed named] at filled
        obtain ⟨next, inRest, rfl⟩ := bind_pure_eq_ok_iff.mp filled
        exact ⟨all.1, induction all.2 inRest⟩

theorem all_putAll {slots : List Slot} {members : List (String × Reading)}
    {draft next : Draft slots} (all : draft.All holds)
    (ensure : ∀ member ∈ members, member.2.Ensures holds)
    (filled : draft.putAll members = .ok next) : next.All holds := by
  induction members generalizing draft with
  | nil =>
      cases filled
      exact all
  | cons member members induction =>
      obtain ⟨key, reading⟩ := member
      obtain ⟨first, others⟩ := List.forall_mem_cons.mp ensure
      obtain ⟨draft, put, filled⟩ := bind_eq_ok_iff.mp filled
      exact induction (all_put all first put) others filled

theorem all_finish (absent : ∀ shape, ∀ part ∈ shape.absent?, holds shape part)
    {slots : List Slot} {draft : Draft slots} {parts : Parts slots} (all : draft.All holds)
    (finished : draft.finish = .ok parts) : parts.All holds := by
  induction slots with
  | nil =>
      cases parts
      trivial
  | cons slot slots induction =>
      obtain ⟨held, rest⟩ := draft
      rw [finish] at finished
      split at finished
      · rename_i part chosen
        obtain ⟨parts, inRest, rfl⟩ := bind_pure_eq_ok_iff.mp finished
        refine ⟨?_, induction all.2 inRest⟩
        cases held with
        | some filled => exact all.1 part chosen
        | none => exact absent slot.shape part chosen
      · cases finished

end Draft

namespace Schema

variable (absent : ∀ shape, ∀ part ∈ shape.absent?, holds shape part) {schema : Schema}

include absent

/-- The parts of an object are what its members yield or what missing members stand for. -/
theorem all_ofMembers {members : List (String × Reading)} {parts : Parts schema.slots}
    (ensure : ∀ member ∈ members, member.2.Ensures holds)
    (read : schema.ofMembers members = .ok parts) : parts.All holds := by
  obtain ⟨draft, filled, finished⟩ := bind_eq_ok_iff.mp read
  exact Draft.all_finish absent (Draft.all_putAll (Draft.all_empty _) ensure filled) finished

theorem all_omitted {slots : List Slot} {index : Nat} {parts : Parts slots}
    (read : schema.omitted slots index = .ok parts) : parts.All holds := by
  induction slots generalizing index with
  | nil =>
      cases parts
      trivial
  | cons slot slots induction =>
      rw [omitted] at read
      split at read
      · rename_i part default
        obtain ⟨parts, inRest, rfl⟩ := bind_pure_eq_ok_iff.mp read
        exact ⟨absent slot.shape part (Shape.absent?_of_default? default), induction inRest⟩
      · cases read

/-- The parts of a list are what its items yield or what missing items stand for. -/
theorem all_ofItemsFrom {slots : List Slot} {index : Nat} {readings : List Reading}
    {parts : Parts slots} (ensure : ∀ reading ∈ readings, reading.Ensures holds)
    (read : schema.ofItemsFrom slots index readings = .ok parts) : parts.All holds := by
  induction slots generalizing index readings with
  | nil =>
      cases parts
      trivial
  | cons slot slots induction =>
      cases readings with
      | nil => exact all_omitted absent read
      | cons reading readings =>
          obtain ⟨first, others⟩ := List.forall_mem_cons.mp ensure
          obtain ⟨part, here, rest⟩ := bind_eq_ok_iff.mp read
          obtain ⟨parts, inRest, rfl⟩ := bind_pure_eq_ok_iff.mp rest
          exact ⟨first slot.shape part here, induction others inRest⟩

end Schema

end Records

theorem exists_of_mem_mapM {ε α β : Type} {f : α → Except ε β} {values : List α} {results : List β}
    (mapped : values.mapM f = .ok results) {result : β} (present : result ∈ results) :
    ∃ value ∈ values, f value = .ok result := by
  induction values generalizing results with
  | nil =>
      cases mapped
      cases present
  | cons value values induction =>
      rw [List.mapM_cons] at mapped
      obtain ⟨first, here, rest⟩ := bind_eq_ok_iff.mp mapped
      obtain ⟨others, later, rfl⟩ := bind_pure_eq_ok_iff.mp rest
      rcases List.mem_cons.mp present with rfl | inOthers
      · exact ⟨value, List.mem_cons_self, here⟩
      · obtain ⟨found, inValues, yields⟩ := induction later inOthers
        exact ⟨found, List.mem_cons_of_mem _ inValues, yields⟩

/-! ## Nodes and literals -/

/-- The value of a literal, where a part is one. -/
def Part.literal? {shape : Shape} : Part shape → Option LiteralValue
  | .literal value => some value
  | _ => none

/-- The nodes that a part holds have a property, and the value of a literal, where the part is one,
has another. -/
structure Part.Carries (ofNode : Node → Prop) (ofLiteral : LiteralValue → Prop) (shape : Shape)
    (part : Part shape) : Prop where
  /-- The nodes. -/
  nodes : ∀ child ∈ part.held, ofNode child
  /-- The value of the literal. -/
  literal : ∀ value ∈ part.literal?, ofLiteral value

/-- Nodes inside a bracket have the inner property, and nodes that the bracket yields have the outer
one: those made of nodes inside, and those inside themselves, which a bracket can list. -/
structure Builds (inner outer : Node → Prop) (ofLiteral : LiteralValue → Prop) : Prop where
  /-- A literal without a value has the value `null`. -/
  null : ofLiteral .null
  /-- A tag outside the grammar makes a node without parts. -/
  unsupported : outer .unsupported
  /-- A tag of the grammar makes a node of the parts inside. -/
  node : ∀ {kind : Kind} {parts : Parts kind.layout},
    parts.All (Part.Carries inner ofLiteral) → outer (.mk kind parts)
  /-- A list of nodes holds the nodes inside as they are. -/
  weaken : ∀ {node : Node}, inner node → outer node

section Carried

variable {ofNode inner outer : Node → Prop} {ofLiteral : LiteralValue → Prop}

namespace Part

theorem carries_of_not_holdsNodes {shape : Shape} {part : Part shape}
    (noNodes : shape.holdsNodes = false) (literal : ∀ value ∈ part.literal?, ofLiteral value) :
    part.Carries ofNode ofLiteral shape :=
  ⟨fun _ present => absurd (holdsNodes_of_mem_held present) (by simp [noNodes]), literal⟩

theorem carries_node {node : Node} (holds : ofNode node) :
    Carries ofNode ofLiteral .node (.node node) :=
  ⟨List.forall_mem_singleton.mpr holds, fun _ => nofun⟩

theorem carries_some {node : Node} (holds : ofNode node) :
    Carries ofNode ofLiteral .optNode (.optNode (some node)) :=
  ⟨List.forall_mem_singleton.mpr holds, fun _ => nofun⟩

theorem carries_literal {value : LiteralValue} (holds : ofLiteral value) :
    Carries ofNode ofLiteral .literal (.literal value) := by
  refine carries_of_not_holdsNodes rfl ?_
  rintro _ ⟨⟩
  exact holds

theorem carries_of_absent? (null : ofLiteral .null) (shape : Shape) :
    ∀ part ∈ shape.absent?, part.Carries ofNode ofLiteral shape := by
  intro part absent
  cases shape with
  | choice vocabulary =>
      obtain ⟨word, -, rfl⟩ := Option.map_eq_some_iff.mp absent
      exact carries_of_not_holdsNodes rfl fun _ => nofun
  | literal =>
      cases absent
      exact carries_literal null
  | optNode => cases absent; exact ⟨fun _ => nofun, fun _ => nofun⟩
  | nodes => cases absent; exact ⟨fun _ => nofun, fun _ => nofun⟩
  | holes => cases absent; exact ⟨fun _ => nofun, fun _ => nofun⟩
  | _ => cases absent <;> exact carries_of_not_holdsNodes rfl fun _ => nofun

end Part

/-- What parts carry, for the nodes and for the literals on their own. -/
theorem Parts.all_carries_iff {slots : List Slot} {parts : Parts slots} :
    parts.All (Part.Carries ofNode ofLiteral) ↔
      (∀ member ∈ parts.children, ofNode member.2) ∧
        parts.All fun _ part => ∀ value ∈ part.literal?, ofLiteral value := by
  induction slots with
  | nil =>
      cases parts
      exact ⟨fun _ => ⟨fun _ => nofun, trivial⟩, fun _ => trivial⟩
  | cons slot slots induction =>
      cases parts with
      | cons head tail =>
          constructor
          · intro all
            obtain ⟨children, literals⟩ := induction.mp all.2
            refine ⟨fun member present => ?_, all.1.literal, literals⟩
            rcases Parts.mem_children_cons.mp present with ⟨-, here⟩ | later
            · exact all.1.nodes member.2 here
            · exact children member later
          · rintro ⟨children, literals⟩
            have here (child : Node) (held : child ∈ head.held) : ofNode child :=
              children (_, child) (Parts.mem_children_cons.mpr (.inl ⟨rfl, held⟩))
            have later (member : Field × Node) (present : member ∈ tail.children) :
                ofNode member.2 :=
              children member (Parts.mem_children_cons.mpr (.inr present))
            exact ⟨⟨here, literals.1⟩, induction.mpr ⟨later, literals.2⟩⟩

/-! ## Scalars -/

namespace Reading

theorem ensures_null (null : ofLiteral .null) :
    Reading.null.Ensures (Part.Carries ofNode ofLiteral) := by
  intro shape part read
  cases shape with
  | literal =>
      cases read
      exact Part.carries_literal null
  | _ => cases read <;> exact ⟨fun _ => nofun, fun _ => nofun⟩

theorem ensures_bool {value : Bool} (literal : ofLiteral (.bool value)) :
    (Reading.bool value).Ensures (Part.Carries ofNode ofLiteral) := by
  intro shape part read
  cases shape with
  | literal =>
      cases read
      exact Part.carries_literal literal
  | _ => cases read <;> exact ⟨fun _ => nofun, fun _ => nofun⟩

theorem ensures_number {value : Json.Number} (literal : ofLiteral (.number value.toDouble)) :
    (Reading.number value).Ensures (Part.Carries ofNode ofLiteral) := by
  intro shape part read
  cases shape with
  | literal =>
      cases read
      exact Part.carries_literal literal
  | _ => cases read

theorem ensures_string {value : String} (literal : ofLiteral (.text value)) :
    (Reading.string value).Ensures (Part.Carries ofNode ofLiteral) := by
  intro shape part read
  cases shape with
  | literal =>
      cases read
      exact Part.carries_literal literal
  | choice vocabulary =>
      obtain ⟨word, -, rfl⟩ := bind_pure_eq_ok_iff.mp read
      exact Part.carries_of_not_holdsNodes rfl fun _ => nofun
  | _ => cases read <;> exact ⟨fun _ => nofun, fun _ => nofun⟩

end Reading

/-! ## Brackets -/

variable (builds : Builds inner outer ofLiteral)
include builds

theorem holds_of_readListNode {items : List Json} {readings : List Reading} {node : Node}
    (ensure : ∀ reading ∈ readings, reading.Ensures (Part.Carries inner ofLiteral))
    (read : readListNode items readings = .ok node) : outer node := by
  rw [readListNode.eq_def] at read
  split at read
  · obtain ⟨kind, -, rest⟩ := bind_eq_ok_iff.mp read
    cases kind with
    | some kind =>
        obtain ⟨parts, items, rfl⟩ := bind_pure_eq_ok_iff.mp rest
        exact builds.node (Schema.all_ofItemsFrom (Part.carries_of_absent? builds.null)
          (List.forall_mem_cons.mp ensure).2 items)
    | none =>
        dsimp only at rest
        split at rest
        · cases rest
          exact builds.unsupported
        · cases rest
  · cases read

theorem holds_of_readObjectNode {members : List (String × Json)}
    {readings : List (String × Reading)} {node : Node}
    (ensure : ∀ member ∈ readings, member.2.Ensures (Part.Carries inner ofLiteral))
    (read : readObjectNode members readings = .ok node) : outer node := by
  obtain ⟨kind, -, rest⟩ := bind_eq_ok_iff.mp read
  cases kind with
  | some kind =>
      obtain ⟨parts, named, rfl⟩ := bind_pure_eq_ok_iff.mp rest
      exact builds.node (Schema.all_ofMembers (Part.carries_of_absent? builds.null) ensure named)
  | none =>
      cases rest
      exact builds.unsupported

namespace Reading

/-- What a list yields is built from what its items yield. -/
theorem ensures_array {items : List Json} {readings : List Reading}
    (composite : ofLiteral (.composite (Json.canonical (.array items))))
    (ensure : ∀ reading ∈ readings, reading.Ensures (Part.Carries inner ofLiteral)) :
    (Reading.array items readings).Ensures (Part.Carries outer ofLiteral) := by
  intro shape part read
  cases shape with
  | node =>
      obtain ⟨node, written, rfl⟩ := bind_pure_eq_ok_iff.mp read
      exact Part.carries_node (holds_of_readListNode builds ensure written)
  | optNode =>
      obtain ⟨node, written, rfl⟩ := bind_pure_eq_ok_iff.mp read
      exact Part.carries_some (holds_of_readListNode builds ensure written)
  | nodes =>
      obtain ⟨nodes, mapped, rfl⟩ := bind_pure_eq_ok_iff.mp read
      refine ⟨fun child present => ?_, fun _ => nofun⟩
      obtain ⟨reading, inReadings, yields⟩ := exists_of_mem_mapM mapped present
      obtain ⟨⟨node⟩, written, rfl⟩ := bind_pure_eq_ok_iff.mp yields
      exact builds.weaken
        ((ensure reading inReadings .node _ written).nodes _ List.mem_cons_self)
  | holes =>
      obtain ⟨nodes, mapped, rfl⟩ := bind_pure_eq_ok_iff.mp read
      refine ⟨fun child present => ?_, fun _ => nofun⟩
      obtain ⟨held, inNodes, isChild⟩ := List.mem_filterMap.mp present
      obtain ⟨reading, inReadings, yields⟩ := exists_of_mem_mapM mapped inNodes
      obtain ⟨⟨node⟩, written, rfl⟩ := bind_pure_eq_ok_iff.mp yields
      exact builds.weaken
        ((ensure reading inReadings .optNode _ written).nodes child (Option.mem_toList.mpr isChild))
  | literal =>
      cases read
      exact Part.carries_literal composite
  | _ =>
      refine Part.carries_of_not_holdsNodes rfl ?_
      cases part
      exact fun _ => nofun

/-- What an object yields is built from what its members yield. -/
theorem ensures_object {members : List (String × Json)} {readings : List (String × Reading)}
    (composite : ofLiteral (.composite (Json.canonical (.object members))))
    (ensure : ∀ member ∈ readings, member.2.Ensures (Part.Carries inner ofLiteral)) :
    (Reading.object members readings).Ensures (Part.Carries outer ofLiteral) := by
  intro shape part read
  cases shape with
  | node =>
      obtain ⟨node, written, rfl⟩ := bind_pure_eq_ok_iff.mp read
      exact Part.carries_node (holds_of_readObjectNode builds ensure written)
  | optNode =>
      obtain ⟨node, written, rfl⟩ := bind_pure_eq_ok_iff.mp read
      exact Part.carries_some (holds_of_readObjectNode builds ensure written)
  | nodes => cases read
  | holes => cases read
  | literal =>
      cases read
      exact Part.carries_literal composite
  | _ =>
      refine Part.carries_of_not_holdsNodes rfl ?_
      cases part
      exact fun _ => nofun

end Reading

end Carried

end TreeQuery
