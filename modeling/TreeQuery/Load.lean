import TreeQuery.Load.Error

/-!
# Loading nodes

A node is loaded from a JSON value, from text, from bytes, or from what a reader delivered. A value
is read in its canonical form; text keeps the order in which it is written.
-/

namespace TreeQuery.Load

/-- Loads a node from a JSON value. -/
def ofJson (value : Json) : Except LoadError Node :=
  value.canonical.toNode.mapError LoadError.ofMismatch

/-- Loads a node from text. -/
def ofText (text : List Char) : Except LoadError Node :=
  (Document.read text).mapError (LoadError.ofProblem text)

/-- The text that bytes encode. -/
def decode (bytes : List UInt8) : Except LoadError (List Char) :=
  (Utf8.decode bytes).mapError LoadError.notUtf8

/-- Loads a node from bytes. -/
def ofBytes (bytes : List UInt8) : Except LoadError Node := do
  ofText (← decode bytes)

/-- What a reader delivered: all of its bytes, or the reason why it failed. -/
abbrev Delivery : Type :=
  Except String (List UInt8)

/-- The bytes that a reader delivered. -/
def bytesOf (delivery : Delivery) : Except LoadError (List UInt8) :=
  delivery.mapError LoadError.unreadable

/-- Loads a node from what a reader delivered. -/
def ofDelivery (delivery : Delivery) : Except LoadError Node := do
  ofBytes (← bytesOf delivery)

end TreeQuery.Load
