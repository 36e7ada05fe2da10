import TreeQuery.Load.Mismatch
import TreeQuery.Node.Basic

/-!
# Reading records

A record is written as an object, whose members are taken in their order and fill the slots that
they name, or as a list, whose items fill the slots in the order of the layout. What a member or an
item yields depends on the shape of its slot.
-/

namespace TreeQuery

/-- What a value yields at every shape. -/
abbrev Reading : Type :=
  (shape : Shape) → Except Mismatch (Part shape)

/-- The part that an omitted value stands for, in either way of writing a record. -/
def Shape.default? : (shape : Shape) → Option (Part shape)
  | .nodes => some (.nodes [])
  | .holes => some (.holes [])
  | .flag => some (.flag false)
  | .textOrEmpty => some (.textOrEmpty "")
  | .choice vocabulary => vocabulary.fallback?.map .choice
  | .literal => some (.literal .null)
  | .chunks => some (.chunks [])
  | _ => none

/-- The part that a missing member stands for. -/
def Shape.absent? : (shape : Shape) → Option (Part shape)
  | .optNode => some (.optNode none)
  | .optText => some (.optText none)
  | .regex => some (.regex none)
  | shape => shape.default?

/-! ## Objects -/

/-- The parts filled so far. -/
abbrev Draft : List Slot → Type
  | [] => Unit
  | slot :: slots => Option (Part slot.shape) × Draft slots

namespace Draft

/-- No part is filled. -/
def empty : (slots : List Slot) → Draft slots
  | [] => ()
  | _ :: slots => (none, empty slots)

/-- Fills the slot that a key names. A key that names no slot is ignored, and one whose slot is
filled is an error. -/
def put (key : String) (reading : Reading) : {slots : List Slot} → Draft slots →
    Except Mismatch (Draft slots)
  | [], () => .ok ()
  | slot :: _, (held, rest) =>
      if slot.field.spelling = key then
        match held with
        | some _ => .error (.duplicate key)
        | none => do
            let part ← reading slot.shape
            return (some part, rest)
      else do
        let rest ← put key reading rest
        return (held, rest)

/-- Takes members in their order. -/
def putAll {slots : List Slot} (draft : Draft slots) :
    List (String × Reading) → Except Mismatch (Draft slots)
  | [] => .ok draft
  | (key, reading) :: members => do
      let draft ← draft.put key reading
      draft.putAll members

/-- The parts, with what missing members stand for; the first required one is reported. -/
def finish : {slots : List Slot} → Draft slots → Except Mismatch (Parts slots)
  | [], () => .ok .nil
  | slot :: _, (held, rest) =>
      match held <|> slot.shape.absent? with
      | some part => do
          let parts ← finish rest
          return .cons part parts
      | none => .error (.missing slot.field.spelling)

end Draft

/-- The parts of a record written as an object. -/
def Schema.ofMembers (schema : Schema) (members : List (String × Reading)) :
    Except Mismatch (Parts schema.slots) := do
  let draft ← (Draft.empty schema.slots).putAll members
  draft.finish

/-! ## Lists -/

/-- The parts of slots for which no item is left, the first of which has the given index. -/
def Schema.omitted (schema : Schema) : (slots : List Slot) → Nat → Except Mismatch (Parts slots)
  | [], _ => .ok .nil
  | slot :: slots, index =>
      match slot.shape.default? with
      | some part => do
          let parts ← schema.omitted slots (index + 1)
          return .cons part parts
      | none => .error (.tooShort index schema)

/-- The parts of the slots from the given index on. -/
def Schema.ofItemsFrom (schema : Schema) :
    (slots : List Slot) → Nat → List Reading → Except Mismatch (Parts slots)
  | slots, index, [] => schema.omitted slots index
  | [], index, readings => .error (.tooLong (index + readings.length) index)
  | slot :: slots, index, reading :: readings => do
      let part ← reading slot.shape
      let parts ← schema.ofItemsFrom slots (index + 1) readings
      return .cons part parts

/-- The parts of a record written as a list. -/
def Schema.ofItems (schema : Schema) (items : List Reading) :
    Except Mismatch (Parts schema.slots) :=
  schema.ofItemsFrom schema.slots 0 items

end TreeQuery
