/-!
# UTF-8

Bytes are decoded one at a time. The machine stands between characters, or inside one with some
continuation bytes owed and a range for the next. It refuses at the first byte that no text can hold
there, and says how many bytes before that byte could have started a character.
-/

namespace TreeQuery.Utf8

/-- Why bytes are not UTF-8. -/
inductive Flaw where
  /-- The `length` bytes from `index` start no character. -/
  | invalid (length index : Nat)
  /-- The input ends inside the character that starts at `index`. -/
  | incomplete (index : Nat)
deriving DecidableEq, Repr

/-- The text of a flaw. -/
def Flaw.message : Flaw → String
  | .invalid length index => s!"invalid utf-8 sequence of {length} bytes from index {index}"
  | .incomplete index => s!"incomplete utf-8 byte sequence from index {index}"

/-- A character begun: its bits so far, the bytes read, and what the next byte has to be. -/
structure Begun where
  /-- The bits of the code point read so far. -/
  bits : Nat
  /-- How many bytes were read. -/
  read : Nat
  /-- How many bytes are to come. -/
  owed : Nat
  /-- The least next byte. -/
  low : Nat := 0x80
  /-- The greatest next byte. -/
  high : Nat := 0xbf
deriving DecidableEq, Repr

/-- The character that a first byte begins, with no byte owed if it is whole. -/
def begin? (byte : Nat) : Option Begun :=
  if byte ≤ 0x7f then some { bits := byte, read := 1, owed := 0 }
  else if byte < 0xc2 then none
  else if byte ≤ 0xdf then some { bits := byte - 0xc0, read := 1, owed := 1 }
  else if byte = 0xe0 then some { bits := 0, read := 1, owed := 2, low := 0xa0 }
  else if byte = 0xed then some { bits := 0xd, read := 1, owed := 2, high := 0x9f }
  else if byte ≤ 0xef then some { bits := byte - 0xe0, read := 1, owed := 2 }
  else if byte = 0xf0 then some { bits := 0, read := 1, owed := 3, low := 0x90 }
  else if byte ≤ 0xf3 then some { bits := byte - 0xf0, read := 1, owed := 3 }
  else if byte = 0xf4 then some { bits := 4, read := 1, owed := 3, high := 0x8f }
  else none

/-- The character after one more byte. -/
def Begun.next? (begun : Begun) (byte : Nat) : Option Begun :=
  if begun.low ≤ byte ∧ byte ≤ begun.high then
    some { bits := begun.bits * 64 + (byte - 0x80), read := begun.read + 1, owed := begun.owed - 1 }
  else
    none

/-- Decodes the bytes from `index` on. `begun` is the character that the bytes before them began,
and `text` the characters before that one, last first. -/
def decodeFrom (index : Nat) (begun : Option Begun) (text : List Char) :
    List UInt8 → Except Flaw (List Char)
  | [] =>
      match begun with
      | none => .ok text.reverse
      | some begun => .error (.incomplete (index - begun.read))
  | byte :: bytes =>
      let read := (begun.map Begun.read).getD 0
      let next := match begun with
        | none => begin? byte.toNat
        | some begun => begun.next? byte.toNat
      match next with
      | none => .error (.invalid (max read 1) (index - read))
      | some next =>
          if next.owed = 0 then
            decodeFrom (index + 1) none (Char.ofNat next.bits :: text) bytes
          else
            decodeFrom (index + 1) (some next) text bytes

/-- The text that the bytes encode. -/
def decode (bytes : List UInt8) : Except Flaw (List Char) :=
  decodeFrom 0 none [] bytes

end TreeQuery.Utf8
