import TreeQuery.Json.Numeral

/-!
# Reading JSON text

A text is read from left to right. The reader of a list or an object is a loop over entries that is
given the reader of one entry, so that a reader that watches the members of one object shares the
loop with the reader of values. Nesting is bounded by a depth.
-/

namespace TreeQuery.Json

/-! ## Strings -/

/-- The value of a hexadecimal digit. -/
def hexValue? (c : Char) : Option Nat :=
  if c.isDigit then some (c.toNat - '0'.toNat)
  else if 'a' ≤ c ∧ c ≤ 'f' then some (c.toNat - 'a'.toNat + 10)
  else if 'A' ≤ c ∧ c ≤ 'F' then some (c.toNat - 'A'.toNat + 10)
  else none

/-- The unit that four hexadecimal digits write. -/
def hexUnit? (a b c d : Char) : Option Nat := do
  return (← hexValue? a) * 4096 + (← hexValue? b) * 256 + (← hexValue? c) * 16 + (← hexValue? d)

/-- Why no four hexadecimal digits start at the byte index `offset`: the text has fewer than four
bytes left, or some of the four is no digit. -/
def hexFault (rest : List Char) (offset : Nat) : Fault :=
  if byteLength rest < 4 then ⟨.endInString, offset + byteLength rest⟩ else ⟨.badEscape, offset + 4⟩

/-- The character that a one-letter escape stands for. -/
def letterEscape? (c : Char) : Option Char :=
  if c = '"' then some '"'
  else if c = '\\' then some '\\'
  else if c = '/' then some '/'
  else if c = 'b' then some '\x08'
  else if c = 'f' then some '\x0c'
  else if c = 'n' then some '\n'
  else if c = 'r' then some '\r'
  else if c = 't' then some '\t'
  else none

/-- Whether a unit is the first half of a surrogate pair. -/
def isHighSurrogate (unit : Nat) : Bool :=
  0xd800 ≤ unit && unit ≤ 0xdbff

/-- Whether a unit is the second half of a surrogate pair. -/
def isLowSurrogate (unit : Nat) : Bool :=
  0xdc00 ≤ unit && unit ≤ 0xdfff

/-- Reads a string whose opening quote is behind the reader. The text so far is `taken`, last
character first. -/
def readStringFrom (offset : Nat) (taken : List Char) : List Char → Except Fault (String × Cursor)
  | [] => .error ⟨.endInString, offset⟩
  | '"' :: rest => .ok (String.ofList taken.reverse, ⟨rest, offset + 1⟩)
  | ['\\'] => .error ⟨.endInString, offset + 1⟩
  | '\\' :: 'u' :: a :: b :: c :: d :: rest =>
      match hexUnit? a b c d with
      | none => .error (hexFault (a :: b :: c :: d :: rest) (offset + 2))
      | some unit =>
          if isLowSurrogate unit then
            .error ⟨.loneSurrogate, offset + 6⟩
          else if isHighSurrogate unit then
            match rest with
            | '\\' :: 'u' :: a :: b :: c :: d :: rest =>
                match hexUnit? a b c d with
                | none => .error (hexFault (a :: b :: c :: d :: rest) (offset + 8))
                | some second =>
                    if isLowSurrogate second then
                      let code := 0x10000 + (unit - 0xd800) * 0x400 + (second - 0xdc00)
                      readStringFrom (offset + 12) (Char.ofNat code :: taken) rest
                    else
                      .error ⟨.loneSurrogate, offset + 12⟩
            | '\\' :: 'u' :: rest => .error (hexFault rest (offset + 8))
            | ['\\'] => .error ⟨.endInString, offset + 7⟩
            | '\\' :: _ => .error ⟨.halfPair, offset + 8⟩
            | [] => .error ⟨.endInString, offset + 6⟩
            | _ => .error ⟨.halfPair, offset + 7⟩
          else
            readStringFrom (offset + 6) (Char.ofNat unit :: taken) rest
  | '\\' :: 'u' :: rest => .error (hexFault rest (offset + 2))
  | '\\' :: c :: rest =>
      match letterEscape? c with
      | some escaped => readStringFrom (offset + 2) (escaped :: taken) rest
      | none => .error ⟨.badEscape, offset + 2⟩
  | c :: rest =>
      if c.toNat < 0x20 then
        .error ⟨.controlCharacter, offset + 1⟩
      else
        readStringFrom (offset + c.utf8Size) (c :: taken) rest

/-- Reads a string whose opening quote is the next character. -/
def readString (cursor : Cursor) : Except Fault (String × Cursor) :=
  readStringFrom cursor.next.offset [] cursor.next.rest

/-! ## Words and scalars -/

/-- Reads the given letters. -/
def readLetters : List Char → Cursor → Except Fault Cursor
  | [], cursor => .ok cursor
  | letter :: letters, cursor =>
      match cursor.rest with
      | [] => .error (cursor.fault .endInValue)
      | c :: _ =>
          if c = letter then readLetters letters cursor.next
          else .error (cursor.faultAhead .expectedWord)

/-- Reads a value that is neither a list nor an object. -/
def readScalar (cursor : Cursor) : Except Fault (Json × Cursor) :=
  match cursor.rest with
  | [] => .error (cursor.fault .endInValue)
  | 'n' :: _ => do
      return (.null, ← readLetters ['u', 'l', 'l'] cursor.next)
  | 't' :: _ => do
      return (.bool true, ← readLetters ['r', 'u', 'e'] cursor.next)
  | 'f' :: _ => do
      return (.bool false, ← readLetters ['a', 'l', 's', 'e'] cursor.next)
  | '"' :: _ => do
      let (text, cursor) ← readString cursor
      return (.string text, cursor)
  | c :: _ =>
      if c = '-' ∨ c.isDigit then do
        let (numeral, cursor) ← Numeral.read cursor
        return (.number (← numeral.value cursor.offset), cursor)
      else
        .error (cursor.faultAhead .expectedValue)

/-! ## Lists and objects -/

/-- What differs between the entries of a list and those of an object. -/
structure Bracket where
  /-- The closing bracket. -/
  closing : Char
  /-- The text ends where an entry, a comma or the bracket is due. -/
  unfinished : Flaw
  /-- Something else stands there. -/
  unseparated : Flaw

/-- The brackets of a list. -/
def Bracket.list : Bracket := ⟨']', .endInList, .expectedItemEnd⟩

/-- The brackets of an object. -/
def Bracket.object : Bracket := ⟨'\x7d', .endInObject, .expectedMemberEnd⟩

section Entries

variable {ε σ : Type} (bracket : Bracket) (lift : Fault → ε)
  (entry : σ → Cursor → Except ε (σ × Cursor))

/-- Reads what follows an entry: the closing bracket, or a comma and further entries. Every entry
takes at least one character, so a count of the characters left is enough. -/
def readMore : Nat → σ → Cursor → Except ε (σ × Cursor)
  | 0, _, cursor => .error (lift (cursor.fault bracket.unfinished))
  | count + 1, state, cursor =>
      let here := cursor.skip
      match here.rest with
      | [] => .error (lift (here.fault bracket.unfinished))
      | c :: _ =>
          if c = bracket.closing then
            .ok (state, here.next)
          else if c = ',' then
            let behind := here.next.skip
            match behind.rest with
            | [] => .error (lift (behind.fault .endInValue))
            | d :: _ =>
                if d = bracket.closing then
                  .error (lift (behind.faultAhead .trailingComma))
                else do
                  let (state, cursor) ← entry state behind
                  readMore count state cursor
          else
            .error (lift (here.faultAhead bracket.unseparated))

/-- Reads the entries behind an opening bracket, each of which changes a state. -/
def readEntries (state : σ) (cursor : Cursor) : Except ε (σ × Cursor) :=
  let here := cursor.skip
  match here.rest with
  | [] => .error (lift (here.fault bracket.unfinished))
  | c :: _ =>
      if c = bracket.closing then
        .ok (state, here.next)
      else do
        let (state, cursor) ← entry state here
        readMore bracket lift entry (cursor.rest.length + 1) state cursor

end Entries

/-- Reads the key of a member. -/
def readKey (cursor : Cursor) : Except Fault (String × Cursor) :=
  match cursor.rest with
  | '"' :: _ => readString cursor
  | _ => .error (cursor.faultAhead .keyNotString)

/-- Reads the colon behind a key. -/
def readColon (cursor : Cursor) : Except Fault Cursor :=
  let here := cursor.skip
  match here.rest with
  | [] => .error (here.fault .endInObject)
  | c :: _ => if c = ':' then .ok here.next else .error (here.faultAhead .expectedColon)

/-- Reads an item and puts it before those already read. -/
def readItem (value : Cursor → Except Fault (Json × Cursor)) (items : List Json) (cursor : Cursor) :
    Except Fault (List Json × Cursor) := do
  let (item, cursor) ← value cursor
  return (item :: items, cursor)

/-- Reads a member and puts it before those already read. -/
def readMember (value : Cursor → Except Fault (Json × Cursor)) (members : List (String × Json))
    (cursor : Cursor) : Except Fault (List (String × Json) × Cursor) := do
  let (key, cursor) ← readKey cursor
  let cursor ← readColon cursor
  let (member, cursor) ← value cursor
  return ((key, member) :: members, cursor)

/-- Reads a value, given the reader of the values nested in it; without one, nothing may nest. -/
def readWith (nested : Option (Cursor → Except Fault (Json × Cursor))) (cursor : Cursor) :
    Except Fault (Json × Cursor) :=
  let here := cursor.skip
  match here.rest, nested with
  | '[' :: _, none => .error (here.faultAhead .tooDeep)
  | '[' :: _, some value => do
      let (items, cursor) ← readEntries .list id (readItem value) [] here.next
      return (.array items.reverse, cursor)
  | '\x7b' :: _, none => .error (here.faultAhead .tooDeep)
  | '\x7b' :: _, some value => do
      let (members, cursor) ← readEntries .object id (readMember value) [] here.next
      return (.object members.reverse, cursor)
  | _, _ => readScalar here

/-- Reads a value with at most `depth` brackets inside one another. -/
def readValue : Nat → Cursor → Except Fault (Json × Cursor)
  | 0 => readWith none
  | depth + 1 => readWith (some (readValue depth))

/-- How many brackets may stand inside one another. -/
def depthLimit : Nat := 127

/-- Nothing but blanks may follow the value. -/
def readEnd (cursor : Cursor) : Except Fault Unit :=
  let here := cursor.skip
  match here.rest with
  | [] => .ok ()
  | _ => .error (here.faultAhead .trailingText)

/-- Reads a text that is one JSON value nested at most `depth` deep. -/
def parseWithin (depth : Nat) (text : List Char) : Except Fault Json := do
  let (value, cursor) ← readValue depth ⟨text, 0⟩
  readEnd cursor
  return value

/-- Reads a text that is one JSON value. -/
def parse (text : List Char) : Except Fault Json :=
  parseWithin depthLimit text

end TreeQuery.Json
