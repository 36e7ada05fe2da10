import TreeQuery.Command.Arguments
import TreeQuery.Json.Pointer
import TreeQuery.Load
import TreeQuery.Query.Call
import TreeQuery.Scope.Usage

/-!
# Running a query

A query is run on the node that its options select in the delivered bytes. Its answer is one line of
JSON; its diagnostics are lines of a log.
-/

namespace TreeQuery.Command

/-- Why no node was selected. -/
inductive Failure where
  /-- No node could be loaded. -/
  | load (error : LoadError)
  /-- The pointer leads nowhere. -/
  | nowhere (pointer : String)
deriving DecidableEq

/-- The words for a failure. -/
def Failure.display : Failure → String
  | .load error => error.display
  | .nowhere pointer => "error[AU0001]: no node at JSON pointer `" ++ pointer ++ "`"

/-- The JSON value in a text, in canonical form. -/
def document (text : List Char) : Except LoadError Json :=
  ((Json.parse text).mapError (LoadError.ofFault text)).map Json.canonical

/-- The value to which a written pointer leads. -/
def select? (pointer : String) (document : Json) : Option Json :=
  (Json.Pointer.parse? pointer).bind fun tokens => tokens.resolve? document

/-- The node that a pointer selects in bytes. -/
def loadSelected (pointer : String) (bytes : List UInt8) : Except Failure Node := do
  let text ← (Load.decode bytes).mapError .load
  let document ← (document text).mapError .load
  match select? pointer document with
  | some value => (Load.ofJson value).mapError .load
  | none => .error (.nowhere pointer)

/-- The node that the options select in what was delivered. -/
def load (pointer : Option String) (delivery : Load.Delivery) : Except Failure Node := do
  let bytes ← (Load.bytesOf delivery).mapError .load
  match pointer with
  | none => (Load.ofBytes bytes).mapError .load
  | some pointer => loadSelected pointer bytes

/-! ## Answers -/

/-- The JSON value of a known value; what JSON cannot hold is written as a text. -/
def primitiveJson? : Primitive → Option Json
  | .undefined => none
  | .null => some .null
  | .bool value => some (.bool value)
  | .number value =>
      if value.isFinite then some (.number (.double value))
      else some (.string (Primitive.number value).toText)
  | .text value => some (.string value)

/-- What is known of a value: whether it is known at all, its type, and the value itself. -/
def knowledge : Option Primitive → Json
  | none => .object [("known", .bool false)]
  | some value =>
      .object ([("known", .bool true), ("type", .string value.typeName)] ++
        ((primitiveJson? value).map fun json => ("value", json)).toList)

/-- An answer and its reports. -/
structure Answer where
  /-- The answer. -/
  value : Json
  /-- What was reported on the way. -/
  diagnostics : List Diagnostic := []

/-- The answer to a query about a node. -/
def Verb.answer (verb : Verb) (words : List String) (node : Node) : Answer :=
  match verb with
  | .contains =>
      let search := node.search (words.headD "")
      { value := .bool search.found, diagnostics := search.diagnostics }
  | .eval =>
      let evaluation := node.evaluate
      { value := knowledge evaluation.toOption, diagnostics := evaluation.diagnostics }
  | .propertyName => { value := knowledge node.propertyName? }
  | .requireSource => { value := (node.requireSource?.map Json.string).getD .null }
  | .isStaticRequire => { value := .bool node.isStaticRequire }
  | .isPromise =>
      let verdict := node.promise
      { value := .bool verdict.holds, diagnostics := verdict.diagnostics }
  | .isFunctionExpression => { value := .bool node.isFunctionExpression }

/-! ## Output -/

/-- A line of the log. -/
def logLine (level : Level) (target message : String) (subject : String × String) : String :=
  level.label ++ " " ++ target ++ ": " ++ message ++ " " ++ subject.1 ++ "=" ++
    Text.quoted subject.2

/-- The line of the log for a loaded node. -/
def loadedLine (node : Node) : String :=
  logLine .debug "ast_utils_js" "loaded node" ("node", Diagnostic.shownTag node.kind?)

/-- The lines of the log for diagnostics; steps of evaluations are not shown. -/
def diagnosticLines (diagnostics : List Diagnostic) : List String :=
  (diagnostics.filter fun diagnostic => diagnostic.level == .debug).map fun diagnostic =>
    logLine diagnostic.level diagnostic.target diagnostic.message diagnostic.subject

/-- What a run leaves behind. -/
inductive Output where
  /-- An answer, with the lines of the log. -/
  | success (line : String) (log : List String)
  /-- A failure. -/
  | failure (line : String)
  /-- Arguments that make no sense. -/
  | misuse (error : UsageError)
deriving DecidableEq

/-- The exit code of a run. -/
def Output.exitCode : Output → Nat
  | .success .. => 0
  | .failure _ => 1
  | .misuse _ => 2

/-- The name and version of the program. -/
def version : String :=
  "ast-utils-js-cli 0.1.0"

/-- How the program is used. -/
def usage : String :=
  "Query ESTree JSON syntax trees: [-i FILE] [--node POINTER] [--trace] COMMAND [NAME]"

/-- Runs a query on what was delivered. -/
def Invocation.run (invocation : Invocation) (delivery : Load.Delivery) : Output :=
  match load invocation.options.pointer delivery with
  | .error failure => .failure failure.display
  | .ok node =>
      let answer := invocation.verb.answer invocation.words node
      .success answer.value.render
        (if invocation.options.trace then
          loadedLine node :: diagnosticLines answer.diagnostics
        else
          [])

/-- What the arguments bring about, given how the named file, or standard input, is delivered. -/
def respond {m : Type → Type} [Monad m] (deliver : Option String → m Load.Delivery)
    (arguments : List String) : m Output :=
  match parse arguments with
  | .error error => pure (.misuse error)
  | .ok .version => pure (.success version [])
  | .ok .help => pure (.success usage [])
  | .ok (.run invocation) => invocation.run <$> deliver invocation.options.input

end TreeQuery.Command
