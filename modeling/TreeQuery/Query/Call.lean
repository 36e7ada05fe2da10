import TreeQuery.Query.Property

/-!
# Calls

Static `require` calls, and expressions that evidently produce a promise.
-/

namespace TreeQuery

/-- The parts of a call. -/
structure Call where
  /-- What is called. -/
  callee : Node
  /-- With which arguments. -/
  arguments : List Node

namespace Node

/-- The parts of a node that is a call. -/
def call? : Node → Option Call
  | .mk .callExpression parts =>
      let (callee, arguments, _) := parts.row
      some ⟨callee, arguments⟩
  | _ => none

/-- The parts of a node that makes an object by a constructor. -/
def construction? : Node → Option Call
  | .mk .newExpression parts =>
      let (callee, arguments, _) := parts.row
      some ⟨callee, arguments⟩
  | _ => none

/-- The text of a node that is a text literal. -/
def literalText? : Node → Option String
  | .mk .literal parts =>
      let (value, _, regex, bigint, _) := parts.row
      match Static.literalValue? value regex bigint with
      | some (.text text) => some text
      | _ => none
  | _ => none

/-- The module that a static `require` call names: the plain identifier is called with one text
literal. -/
def requireSource? (node : Node) : Option String := do
  let call ← node.call?
  if call.callee.identifierName? = some "require" then
    match call.arguments with
    | [argument] => argument.literalText?
    | _ => none
  else
    none

/-- Whether a node is a static `require` call. -/
def isStaticRequire (node : Node) : Bool :=
  node.requireSource?.isSome

/-- The expression inside an optional chain; other nodes stay as they are. -/
def unchained : Node → Node
  | .mk .chainExpression parts => parts.row.1
  | node => node

/-- Whether a node is a function expression, arrow or not. -/
def isFunctionExpression (node : Node) : Bool :=
  node.kind? == some .functionExpression || node.kind? == some .arrowFunctionExpression

end Node

/-- The methods that every promise has. -/
def promiseMethods : List String :=
  ["then", "catch"]

/-- The static methods of promises that do not make one. -/
def nonPromiseStatics : List String :=
  ["is", "cancel", "promisify", "promisifyAll"]

/-- Whether the call of a member makes a promise, by the name of the member. -/
def MemberAccess.makesPromise (access : MemberAccess) (method : String) : Bool :=
  promiseMethods.contains method ||
    (access.object.identifierName? == some "Promise" && !nonPromiseStatics.contains method)

/-- The answer of a query and its reports. -/
structure Verdict where
  /-- The answer. -/
  holds : Bool
  /-- What was reported on the way. -/
  diagnostics : List Diagnostic
deriving DecidableEq, Repr

/-- Whether the call of a member makes a promise. -/
def MemberAccess.promise (access : MemberAccess) : Verdict :=
  match access.staticName with
  | .ok (some method) => ⟨access.makesPromise method, []⟩
  | .ok none => ⟨false, []⟩
  | .error obstacle => ⟨false, obstacle.diagnostics⟩

/-- Whether a node evidently produces a promise: the call of a promise method, or of a static method
of `Promise` that makes one, or the construction of a `Promise`. -/
def Node.promise (node : Node) : Verdict :=
  let node := node.unchained
  match node.call? with
  | some call =>
      match call.callee.memberAccess? with
      | some access => access.promise
      | none => ⟨false, []⟩
  | none =>
      match node.construction? with
      | some call => ⟨call.callee.identifierName? == some "Promise", []⟩
      | none => ⟨false, []⟩

end TreeQuery
