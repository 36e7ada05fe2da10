/-!
# Places in a text

A cursor is the rest of a text with the number of bytes before it. A fault names a flaw and the byte
index at which it was noticed, and an index is shown to a reader as a line and a column.
-/

namespace TreeQuery.Json

/-- What makes a text not JSON. -/
inductive Flaw where
  /-- The text ends where a value is due or inside a word or number. -/
  | endInValue
  /-- The text ends inside an object. -/
  | endInObject
  /-- The text ends inside a list. -/
  | endInList
  /-- The text ends inside a string. -/
  | endInString
  /-- No value starts here. -/
  | expectedValue
  /-- A word other than `true`, `false` and `null`. -/
  | expectedWord
  /-- No colon after a key. -/
  | expectedColon
  /-- Neither a comma nor a closing brace after a member. -/
  | expectedMemberEnd
  /-- Neither a comma nor a closing bracket after an item. -/
  | expectedItemEnd
  /-- A closing bracket after a comma. -/
  | trailingComma
  /-- A key that is not a string. -/
  | keyNotString
  /-- More text after the value. -/
  | trailingText
  /-- A malformed number. -/
  | badNumber
  /-- A number beyond the doubles. -/
  | outOfRange
  /-- An unknown escape. -/
  | badEscape
  /-- The first half of a surrogate pair without a second escape. -/
  | halfPair
  /-- A surrogate that is not part of a pair. -/
  | loneSurrogate
  /-- A control character in a string. -/
  | controlCharacter
  /-- More nested brackets than are allowed. -/
  | tooDeep
deriving DecidableEq, Repr

/-- The text of a flaw. -/
def Flaw.message : Flaw → String
  | .endInValue => "EOF while parsing a value"
  | .endInObject => "EOF while parsing an object"
  | .endInList => "EOF while parsing a list"
  | .endInString => "EOF while parsing a string"
  | .expectedValue => "expected value"
  | .expectedWord => "expected ident"
  | .expectedColon => "expected `:`"
  | .expectedMemberEnd => "expected `,` or `\x7d`"
  | .expectedItemEnd => "expected `,` or `]`"
  | .trailingComma => "trailing comma"
  | .keyNotString => "key must be a string"
  | .trailingText => "trailing characters"
  | .badNumber => "invalid number"
  | .outOfRange => "number out of range"
  | .badEscape => "invalid escape"
  | .halfPair => "unexpected end of hex escape"
  | .loneSurrogate => "lone leading surrogate in hex escape"
  | .controlCharacter => "control character (\\u0000-\\u001F) found while parsing a string"
  | .tooDeep => "recursion limit exceeded"

/-- A flaw and the number of bytes up to where it was noticed. -/
structure Fault where
  /-- What is wrong. -/
  flaw : Flaw
  /-- The byte index. -/
  index : Nat
deriving DecidableEq, Repr

/-- A line, counted from one, and a column, the number of bytes before it in the line. -/
structure Position where
  /-- The line. -/
  line : Nat
  /-- The column. -/
  column : Nat
deriving DecidableEq, Repr

/-- Moves a position over the first `index` bytes of a text. -/
def Position.advance (position : Position) : List Char → Nat → Position
  | [], _ => position
  | c :: rest, index =>
      if index = 0 then
        position
      else if c = '\n' then
        Position.advance ⟨position.line + 1, 0⟩ rest (index - 1)
      else
        Position.advance ⟨position.line, position.column + min c.utf8Size index⟩ rest
          (index - c.utf8Size)

/-- The position of a byte index in a text. -/
def Position.ofIndex (text : List Char) (index : Nat) : Position :=
  Position.advance ⟨1, 0⟩ text index

/-- The text of a position, as it follows a message. -/
def Position.suffix (position : Position) : String :=
  let line := position.line
  let column := position.column
  s!" at line {line} column {column}"

/-- The rest of a text and the number of bytes before it. -/
structure Cursor where
  /-- What is left to read. -/
  rest : List Char
  /-- How many bytes were read. -/
  offset : Nat := 0
deriving DecidableEq, Repr

namespace Cursor

/-- The cursor behind the next character. -/
def next (cursor : Cursor) : Cursor :=
  match cursor.rest with
  | [] => cursor
  | c :: rest => ⟨rest, cursor.offset + c.utf8Size⟩

/-- A fault noticed here. -/
def fault (cursor : Cursor) (flaw : Flaw) : Fault :=
  ⟨flaw, cursor.offset⟩

/-- A fault noticed at the next byte. -/
def faultAhead (cursor : Cursor) (flaw : Flaw) : Fault :=
  ⟨flaw, cursor.offset + 1⟩

/-- Whether a character may stand between the parts of a JSON text. -/
def isSpace (c : Char) : Bool :=
  c == ' ' || c == '\n' || c == '\t' || c == '\r'

/-- The cursor behind the blanks from `offset` on. -/
def skipFrom (offset : Nat) : List Char → Cursor
  | [] => ⟨[], offset⟩
  | c :: rest => if isSpace c then skipFrom (offset + 1) rest else ⟨c :: rest, offset⟩

/-- The cursor behind the blanks. -/
def skip (cursor : Cursor) : Cursor :=
  skipFrom cursor.offset cursor.rest

end Cursor

/-- The number of bytes of a text. -/
def byteLength : List Char → Nat
  | [] => 0
  | c :: rest => c.utf8Size + byteLength rest

end TreeQuery.Json
