import TreeQuery.Json.Basic

/-!
# Pointers into a JSON value

A pointer is a list of tokens. A token leads from an object to the member with that key, from a list
to the item whose index it writes, and from anything else nowhere. In writing, every token follows a
slash, and tildes and slashes inside it are escaped.
-/

namespace TreeQuery.Json

/-- The tokens that lead from a value to a part of it. -/
abbrev Pointer : Type :=
  List String

namespace Pointer

/-- A token without its escapes: `~1` is a slash and `~0` a tilde. -/
def unescape : List Char → List Char
  | '~' :: '1' :: rest => '/' :: unescape rest
  | '~' :: '0' :: rest => '~' :: unescape rest
  | c :: rest => c :: unescape rest
  | [] => []

/-- Reads a written pointer: nothing, or tokens that each follow a slash. -/
def parse? (text : String) : Option Pointer :=
  match text.toList with
  | [] => some []
  | '/' :: rest => some ((rest.splitOn '/').map fun token => String.ofList (unescape token))
  | _ => none

/-- The index that a token writes in decimal, without a sign or a leading zero. -/
def index? (token : String) : Option Nat :=
  match token.toList with
  | [] => none
  | ['0'] => some 0
  | '0' :: _ => none
  | digits => if digits.all Char.isDigit then some (Nat.ofDigitChars 10 digits 0) else none

/-- Where one token leads. -/
def step? (token : String) : Json → Option Json
  | .object members => member? token members
  | .array items => (index? token).bind fun index => items[index]?
  | _ => none

/-- Where the tokens lead. -/
def resolve? : Pointer → Json → Option Json
  | [], value => some value
  | token :: tokens, value => (step? token value).bind (resolve? tokens)

end Pointer

end TreeQuery.Json
