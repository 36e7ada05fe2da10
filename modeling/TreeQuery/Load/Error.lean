import TreeQuery.Load.Document
import TreeQuery.Text.Utf8

/-!
# Failures to load a node

Every failure has a stable code, a message for people, and a detail that says what exactly is wrong.
-/

namespace TreeQuery

/-- Why no node was loaded. -/
inductive LoadError where
  /-- The document is not a node. -/
  | notNode (cause : Document.Cause) (position : Option Json.Position)
  /-- The bytes are not UTF-8. -/
  | notUtf8 (flaw : Utf8.Flaw)
  /-- The bytes could not be read. -/
  | unreadable (reason : String)
deriving DecidableEq

namespace LoadError

/-- The problem of a document, with its place in the text. -/
def ofProblem (text : List Char) (problem : Document.Problem) : LoadError :=
  .notNode problem.cause (problem.index.map (Json.Position.ofIndex text))

/-- The fault of a text, with its place. -/
def ofFault (text : List Char) (fault : Json.Fault) : LoadError :=
  .ofProblem text (.ofFault fault)

/-- A mismatch without a place. -/
def ofMismatch (mismatch : Mismatch) : LoadError :=
  .notNode (.tree mismatch) none

/-- The code of a failure. -/
def code : LoadError → String
  | .notNode .. => "EJ0001"
  | .notUtf8 _ => "EJ0002"
  | .unreadable _ => "EJ0003"

/-- What exactly is wrong. -/
def detail : LoadError → String
  | .notNode cause none => cause.message
  | .notNode cause (some position) => cause.message ++ position.suffix
  | .notUtf8 flaw => flaw.message
  | .unreadable reason => reason

/-- The message for people. -/
def message (error : LoadError) : String :=
  match error with
  | .notNode .. => "input is not an ESTree node: " ++ error.detail
  | .notUtf8 _ => "input is not valid UTF-8: " ++ error.detail
  | .unreadable _ => "failed to read input: " ++ error.detail

/-- The message with its code in front. -/
def display (error : LoadError) : String :=
  "error[" ++ error.code ++ "]: " ++ error.message

/-- The code and the message, for logs. -/
def summary (error : LoadError) : String :=
  error.code ++ " " ++ error.message

end LoadError

end TreeQuery
