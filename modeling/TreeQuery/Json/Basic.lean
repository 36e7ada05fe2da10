import TreeQuery.Number.Arithmetic

/-!
# JSON values

An object keeps its members in the order in which they were written, repeated keys included. The
canonical form of a value has the members of every object sorted by key, and of members that repeat
a key only the last.
-/

namespace TreeQuery

/-- A JSON number: whole numbers of machine size stay whole, all others are doubles. -/
inductive Json.Number where
  /-- A whole number. -/
  | integer (value : Int)
  /-- A double. -/
  | double (value : Double)
deriving DecidableEq

/-- A JSON value. -/
inductive Json where
  /-- The value `null`. -/
  | null
  /-- A truth value. -/
  | bool (value : Bool)
  /-- A number. -/
  | number (value : Json.Number)
  /-- A string. -/
  | string (value : String)
  /-- A list of values. -/
  | array (items : List Json)
  /-- A list of keys with their values. -/
  | object (members : List (String × Json))
deriving Inhabited

namespace Json

/-- The nearest double. -/
def Number.toDouble : Number → Double
  | .integer value => .ofInt value
  | .double value => value

/-- Equality of numbers: a whole number differs from every double, and doubles compare by value. -/
def Number.same : Number → Number → Bool
  | .integer a, .integer b => a == b
  | .double a, .double b => a.same b
  | _, _ => false

mutual

/-- Equality of values, with numbers compared by `Number.same`. -/
def same : Json → Json → Bool
  | .null, .null => true
  | .bool a, .bool b => a == b
  | .number a, .number b => a.same b
  | .string a, .string b => a == b
  | .array as, .array bs => sameItems as bs
  | .object as, .object bs => sameMembers as bs
  | _, _ => false

/-- Equality of lists of values. -/
def sameItems : List Json → List Json → Bool
  | [], [] => true
  | a :: as, b :: bs => same a b && sameItems as bs
  | _, _ => false

/-- Equality of lists of members. -/
def sameMembers : List (String × Json) → List (String × Json) → Bool
  | [], [] => true
  | (key, a) :: as, (other, b) :: bs => key == other && same a b && sameMembers as bs
  | _, _ => false

end

/-- Adds a member to members sorted by key, unless they have its key. -/
def insertMember (key : String) (value : Json) : List (String × Json) → List (String × Json)
  | [] => [(key, value)]
  | (other, held) :: rest =>
      if key = other then (other, held) :: rest
      else if key < other then (key, value) :: (other, held) :: rest
      else (other, held) :: insertMember key value rest

mutual

/-- The value with the members of every object sorted by key, the last of equal keys kept. -/
def canonical : Json → Json
  | .array items => .array (canonicalItems items)
  | .object members => .object (canonicalMembers members)
  | .null => .null
  | .bool value => .bool value
  | .number value => .number value
  | .string value => .string value

/-- The canonical forms of a list of values. -/
def canonicalItems : List Json → List Json
  | [] => []
  | item :: items => canonical item :: canonicalItems items

/-- The canonical form of a list of members. -/
def canonicalMembers : List (String × Json) → List (String × Json)
  | [] => []
  | (key, value) :: members => insertMember key (canonical value) (canonicalMembers members)

end

/-- The value of a member by its key. -/
def member? (key : String) (members : List (String × Json)) : Option Json :=
  members.lookup key

end Json

end TreeQuery
