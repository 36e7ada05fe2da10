import TreeQuery.Grammar.Layout
import TreeQuery.Json.Printer

/-!
# Values that are not nodes

Why a JSON value does not describe a syntax node, and how that is put into words.
-/

namespace TreeQuery

/-- What was found in a value's place. -/
inductive Found where
  /-- The value `null`. -/
  | null
  /-- A truth value. -/
  | bool (value : Bool)
  /-- A number. -/
  | number (value : Json.Number)
  /-- A string. -/
  | string (value : String)
  /-- A list. -/
  | sequence
  /-- An object. -/
  | map
deriving DecidableEq

/-- What a JSON value shows of itself in a message. -/
def Found.ofJson : Json → Found
  | .null => .null
  | .bool value => .bool value
  | .number value => .number value
  | .string value => .string value
  | .array _ => .sequence
  | .object _ => .map

/-- The words for what was found. -/
def Found.message : Found → String
  | .null => "null"
  | .bool true => "boolean `true`"
  | .bool false => "boolean `false`"
  | .number (.integer value) => "integer `" ++ String.ofList (Json.integerText value) ++ "`"
  | .number (.double value) => "floating point `" ++ String.ofList (Json.doubleText value) ++ "`"
  | .string value => "string " ++ Text.quoted value
  | .sequence => "sequence"
  | .map => "map"

/-- What a place calls for. -/
inductive Expected where
  /-- A node. -/
  | node
  /-- The tag of a node. -/
  | tag
  /-- A text. -/
  | text
  /-- A truth value. -/
  | flag
  /-- A list. -/
  | list
  /-- A word of a vocabulary. -/
  | word
  /-- Nothing. -/
  | nothing
  /-- A record with the given name. -/
  | record (title : String)
deriving DecidableEq, Repr

/-- The words for what a place calls for. -/
def Expected.message : Expected → String
  | .node => "internally tagged enum Node"
  | .tag => "variant identifier"
  | .text => "a string"
  | .flag => "a boolean"
  | .list => "a sequence"
  | .word => "string or map"
  | .nothing => "unit"
  | .record title => "struct " ++ title

/-- What a shape calls for. -/
def Shape.expected : Shape → Expected
  | .node | .optNode => .node
  | .nodes | .holes | .chunks => .list
  | .flag => .flag
  | .text | .optText | .textOrEmpty | .literal => .text
  | .choice _ => .word
  | .regex => .record Schema.regex.name
  | .chunkText => .record Schema.chunkText.name
  | .chunk => .record Schema.chunk.name

/-- Why a value does not describe a node. -/
inductive Mismatch where
  /-- A required member is missing. -/
  | missing (key : String)
  /-- A member is given twice. -/
  | duplicate (key : String)
  /-- A word is not in the vocabulary of its place. -/
  | unknownWord (word : String) (vocabulary : Vocabulary)
  /-- A value is of the wrong type. -/
  | wrongType (found : Found) (expected : Expected)
  /-- An object that should name one word has no key or several. -/
  | notSingle
  /-- A positional record ends before the part with this index. -/
  | tooShort (index : Nat) (schema : Schema)
  /-- A positional record has more values than parts. -/
  | tooLong (length parts : Nat)
deriving DecidableEq

/-- A number of elements. -/
def elements (n : Nat) : String :=
  if n = 1 then "1 element" else s!"{n} elements"

/-- A text between backquotes. -/
def backquoted (text : String) : String :=
  "`" ++ text ++ "`"

/-- The spellings of which one is expected. -/
def oneOf : List String → String
  | [] => ""
  | [word] => backquoted word
  | [first, second] => backquoted first ++ " or " ++ backquoted second
  | words => "one of " ++ ", ".intercalate (words.map backquoted)

/-- The words for a mismatch. -/
def Mismatch.message : Mismatch → String
  | .missing key => "missing field " ++ backquoted key
  | .duplicate key => "duplicate field " ++ backquoted key
  | .unknownWord word vocabulary =>
      "unknown variant " ++ backquoted word ++ ", expected " ++
        oneOf (vocabulary.spellings.map Prod.fst)
  | .wrongType found expected =>
      "invalid type: " ++ found.message ++ ", expected " ++ expected.message
  | .notSingle => "invalid value: map, expected map with a single key"
  | .tooShort index schema =>
      s!"invalid length {index}, expected struct " ++ schema.name ++ " with " ++
        elements schema.slots.length
  | .tooLong length parts =>
      s!"invalid length {length}, expected " ++ elements parts ++ " in sequence"

end TreeQuery
