import TreeQuery.Json.Reader
import TreeQuery.Load.Value

/-!
# Reading nodes from text

A document is one node. Its text is read to the end of the outermost bracket while the tag of the
outermost node is watched; only then are the parts of the node taken from the value that was read.
So what is wrong with the text, or with the outermost tag, comes first and has a place, and what is
wrong with the parts has none.
-/

namespace TreeQuery.Document

open Json (Cursor Fault)

/-- What is wrong with a document. -/
inductive Cause where
  /-- The text is not JSON. -/
  | text (flaw : Json.Flaw)
  /-- The value is not a node. -/
  | tree (mismatch : Mismatch)
deriving DecidableEq

/-- The words for a cause. -/
def Cause.message : Cause → String
  | .text flaw => flaw.message
  | .tree mismatch => mismatch.message

/-- A cause with the byte index at which it was noticed, if it has a place. -/
structure Problem where
  /-- What is wrong. -/
  cause : Cause
  /-- Where it was noticed. -/
  index : Option Nat
deriving DecidableEq

/-- A fault of the text. -/
def Problem.ofFault (fault : Fault) : Problem :=
  ⟨.text fault.flaw, some fault.index⟩

/-- A mismatch noticed at the cursor. -/
def Problem.here (mismatch : Mismatch) (cursor : Cursor) : Problem :=
  ⟨.tree mismatch, some cursor.offset⟩

/-- A mismatch without a place. -/
def Problem.nowhere (mismatch : Mismatch) : Problem :=
  ⟨.tree mismatch, none⟩

/-- Faults of the text as problems of the document. -/
def ofText {α : Type} (result : Except Fault α) : Except Problem α :=
  result.mapError Problem.ofFault

/-- Reads the tag of the outermost node, which has to be a string. A tag that opens a bracket is
refused before it is read. -/
def readOuterTag (cursor : Cursor) : Except Problem (Json × Cursor) := do
  let here := cursor.skip
  match here.rest with
  | '[' :: _ => .error (.here (.wrongType .sequence .tag) here)
  | '\x7b' :: _ => .error (.here (.wrongType .map .tag) here)
  | _ =>
      let (value, behind) ← ofText (Json.readScalar here)
      match value with
      | .string tag => return (.string tag, behind)
      | value => .error (.here (.wrongType (.ofJson value) .tag) behind)

/-- Where a second tag is noticed: behind its key and the blanks that follow, and behind the closing
brace if there is one. -/
def behindRepeatedTag (cursor : Cursor) : Cursor :=
  let here := cursor.skip
  match here.rest with
  | '\x7d' :: _ => here.next
  | _ => here

/-- Reads an item of the outermost node, the first of which is the tag. -/
def readOuterItem (value : Cursor → Except Fault (Json × Cursor)) (items : List Json)
    (cursor : Cursor) : Except Problem (List Json × Cursor) := do
  let (item, cursor) ← if items.isEmpty then readOuterTag cursor else ofText (value cursor)
  return (item :: items, cursor)

/-- Reads a member of the outermost node, which has only one tag. -/
def readOuterMember (value : Cursor → Except Fault (Json × Cursor)) (members : List (String × Json))
    (cursor : Cursor) : Except Problem (List (String × Json) × Cursor) := do
  let (key, cursor) ← ofText (Json.readKey cursor)
  if key = tagKey then
    if members.any fun member => member.1 == tagKey then
      .error (.here (.duplicate tagKey) (behindRepeatedTag cursor))
    else
      let cursor ← ofText (Json.readColon cursor)
      let (tag, cursor) ← readOuterTag cursor
      return ((key, tag) :: members, cursor)
  else
    let cursor ← ofText (Json.readColon cursor)
    let (member, cursor) ← ofText (value cursor)
    return ((key, member) :: members, cursor)

/-- Reads the value of the outermost node, given the reader of the values nested in it. -/
def readOuter (value : Cursor → Except Fault (Json × Cursor)) (cursor : Cursor) :
    Except Problem (Json × Cursor) := do
  let here := cursor.skip
  match here.rest with
  | '[' :: _ =>
      let (items, cursor) ←
        Json.readEntries .list Problem.ofFault (readOuterItem value) [] here.next
      if items.isEmpty then
        .error (.here (.missing tagKey) cursor)
      else
        return (.array items.reverse, cursor)
  | '\x7b' :: _ =>
      let (members, cursor) ←
        Json.readEntries .object Problem.ofFault (readOuterMember value) [] here.next
      if members.any fun member => member.1 == tagKey then
        return (.object members.reverse, cursor)
      else
        .error (.here (.missing tagKey) cursor)
  | _ =>
      let (scalar, behind) ← ofText (Json.readScalar here)
      .error (.here (.wrongType (.ofJson scalar) .node) behind)

/-- Reads a text that is one node. -/
def read (text : List Char) : Except Problem Node := do
  let (value, cursor) ← readOuter (Json.readValue (Json.depthLimit - 1)) ⟨text, 0⟩
  let node ← value.toNode.mapError Problem.nowhere
  ofText (Json.readEnd cursor)
  return node

end TreeQuery.Document
