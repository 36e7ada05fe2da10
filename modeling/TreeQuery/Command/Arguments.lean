/-!
# Command-line arguments

Options may stand before or after the command and its own argument. An option is given at most once
on either side of the command; what is given behind the command wins.
-/

namespace TreeQuery.Command

/-- The queries that a command names. -/
inductive Verb where
  | contains | eval | propertyName | requireSource | isStaticRequire | isPromise
  | isFunctionExpression
deriving DecidableEq, Repr

/-- The verbs by their names. -/
def Verb.names : List (String × Verb) :=
  [("contains", .contains), ("eval", .eval), ("property-name", .propertyName),
   ("require-source", .requireSource), ("is-static-require", .isStaticRequire),
   ("is-promise", .isPromise), ("is-function-expression", .isFunctionExpression)]

/-- How many words a verb takes. -/
def Verb.arity : Verb → Nat
  | .contains => 1
  | _ => 0

/-- What the options say. -/
structure Options where
  /-- The file to read; without one, standard input is read. -/
  input : Option String := none
  /-- The pointer to the node; without one, the root is meant. -/
  pointer : Option String := none
  /-- Whether diagnostics are shown. -/
  trace : Bool := false
deriving DecidableEq, Repr

/-- The options of both sides of the command. -/
def Options.merge (before behind : Options) : Options where
  input := behind.input <|> before.input
  pointer := behind.pointer <|> before.pointer
  trace := behind.trace || before.trace

/-- A query to be run. -/
structure Invocation where
  /-- What the options say. -/
  options : Options
  /-- The query. -/
  verb : Verb
  /-- The words of the query. -/
  words : List String
deriving DecidableEq, Repr

/-- What the arguments ask for. -/
inductive Request where
  /-- To run a query. -/
  | run (invocation : Invocation)
  /-- To show the version. -/
  | version
  /-- To show how the program is used. -/
  | help
deriving DecidableEq, Repr

/-- Why arguments make no sense. -/
inductive UsageError where
  /-- There is no such option here, or it takes no value. -/
  | unexpectedOption (argument : String)
  /-- An option is given twice. -/
  | repeatedOption (argument : String)
  /-- An option lacks its value. -/
  | missingValue (argument : String)
  /-- The name of the input file is empty. -/
  | emptyInput
  /-- There is no such command. -/
  | unknownCommand (argument : String)
  /-- There is no command. -/
  | missingCommand
  /-- A command lacks a word. -/
  | missingWord
  /-- A command takes no such word. -/
  | surplusWord (argument : String)
deriving DecidableEq, Repr

/-- The words for a usage error. -/
def UsageError.message : UsageError → String
  | .unexpectedOption argument => "unexpected option '" ++ argument ++ "'"
  | .repeatedOption argument => "option '" ++ argument ++ "' is given more than once"
  | .missingValue argument => "option '" ++ argument ++ "' needs a value"
  | .emptyInput => "the name of the input file is empty"
  | .unknownCommand argument => "unknown command '" ++ argument ++ "'"
  | .missingCommand => "a command is required"
  | .missingWord => "the command needs an argument"
  | .surplusWord argument => "unexpected argument '" ++ argument ++ "'"

/-! ## Tokens -/

/-- An argument by its form. -/
inductive Token where
  /-- Two dashes and a name, perhaps with a value behind an equals sign. -/
  | long (label : String) (value : Option String)
  /-- One dash and a letter, perhaps with a value behind it. -/
  | short (letter : Char) (value : Option String)
  /-- Two dashes alone: only words follow. -/
  | separator
  /-- Anything else. -/
  | word (text : String)
deriving DecidableEq, Repr

/-- The form of an argument. -/
def Token.ofArgument (argument : String) : Token :=
  match argument.toList with
  | ['-', '-'] => .separator
  | '-' :: '-' :: rest =>
      let (label, value) := rest.span (· != '=')
      .long (String.ofList label)
        (match value with
          | [] => none
          | _ :: value => some (String.ofList value))
  | '-' :: letter :: rest =>
      .short letter
        (match rest with
          | [] => none
          | '=' :: value => some (String.ofList value)
          | value => some (String.ofList value))
  | _ => .word argument

/-- An option by its meaning. -/
inductive Switch where
  /-- Names the input file. -/
  | input
  /-- Gives a pointer to the node. -/
  | pointer
  /-- Shows diagnostics. -/
  | trace
  /-- Shows the version. -/
  | version
  /-- Shows how the program is used. -/
  | help
deriving DecidableEq, Repr

/-- The option that a token gives and its attached value. The version is known only before the
command, and a letter that takes no value may be followed by anything. -/
def Token.switch? (beforeCommand : Bool) : Token → Option (Switch × Option String)
  | .long "input" value => some (.input, value)
  | .long "node" value => some (.pointer, value)
  | .long "trace" none => some (.trace, none)
  | .long "version" none => if beforeCommand then some (.version, none) else none
  | .long "help" none => some (.help, none)
  | .short 'i' value => some (.input, value)
  | .short 'V' _ => if beforeCommand then some (.version, none) else none
  | .short 'h' _ => some (.help, none)
  | _ => none

/-- The value that an option may take from the next argument, which must not look like an option. -/
def nextValue? (argument : String) : Option String :=
  match Token.ofArgument argument with
  | .word text => some text
  | _ => none

/-! ## Reading -/

/-- Sets the input file. -/
def Options.setInput (options : Options) (argument value : String) : Except UsageError Options :=
  if options.input.isSome then .error (.repeatedOption argument)
  else if value.isEmpty then .error .emptyInput
  else .ok { options with input := some value }

/-- Sets the pointer. -/
def Options.setPointer (options : Options) (argument value : String) : Except UsageError Options :=
  if options.pointer.isSome then .error (.repeatedOption argument)
  else .ok { options with pointer := some value }

/-- Sets an option that takes a value. -/
def Options.set (options : Options) (switch : Switch) (argument value : String) :
    Except UsageError Options :=
  match switch with
  | .input => options.setInput argument value
  | .pointer => options.setPointer argument value
  | _ => .ok options

/-- Where reading options stops. -/
inductive Stop where
  /-- At a word, with the arguments behind it. -/
  | word (options : Options) (text : String) (rest : List String)
  /-- At the separator, with the words behind it. -/
  | separator (options : Options) (words : List String)
  /-- At the end of the arguments. -/
  | done (options : Options)
  /-- At an option that asks for something else. -/
  | request (request : Request)
deriving DecidableEq, Repr

/-- Reads options up to the first word. -/
def readOptions (beforeCommand : Bool) (options : Options) : List String → Except UsageError Stop
  | [] => .ok (.done options)
  | argument :: rest =>
      match Token.ofArgument argument with
      | .separator => .ok (.separator options rest)
      | .word text => .ok (.word options text rest)
      | token =>
          match token.switch? beforeCommand with
          | none => .error (.unexpectedOption argument)
          | some (.version, _) => .ok (.request .version)
          | some (.help, _) => .ok (.request .help)
          | some (.trace, _) =>
              if options.trace then .error (.repeatedOption argument)
              else readOptions beforeCommand { options with trace := true } rest
          | some (switch, some value) => do
              let options ← options.set switch argument value
              readOptions beforeCommand options rest
          | some (switch, none) =>
              match rest with
              | [] => .error (.missingValue argument)
              | next :: rest => do
                  match nextValue? next with
                  | none => .error (.missingValue argument)
                  | some value => do
                      let options ← options.set switch argument value
                      readOptions beforeCommand options rest

/-- What stands behind the command: its words and further options, or another request. -/
abbrev Behind : Type :=
  Except Request (Options × List String)

/-- Adds words to those of the command. -/
def addWords (arity : Nat) (words more : List String) : Except UsageError (List String) :=
  let all := words ++ more
  match all.drop arity with
  | [] => .ok all
  | surplus :: _ => .error (.surplusWord surplus)

/-- Reads what stands behind the command. Every word is followed by fewer arguments, so their number
is enough. -/
def readBehind (arity : Nat) : Nat → Options → List String → List String →
    Except UsageError Behind
  | 0, options, words, _ => .ok (.ok (options, words))
  | count + 1, options, words, arguments => do
      match ← readOptions false options arguments with
      | .done options => return .ok (options, words)
      | .request request => return .error request
      | .separator options more => return .ok (options, ← addWords arity words more)
      | .word options text rest => do
          let words ← addWords arity words [text]
          readBehind arity count options words rest

/-- Reads what help is wanted about: the program, or one command. -/
def readTopic : List String → Except UsageError Request
  | [] => .ok .help
  | topic :: rest =>
      if topic ≠ "help" ∧ (Verb.names.lookup topic).isNone then
        .error (.unknownCommand topic)
      else
        match rest with
        | [] => .ok .help
        | word :: _ => .error (.unknownCommand word)

/-- Reads the arguments. -/
def parse (arguments : List String) : Except UsageError Request := do
  match ← readOptions true {} arguments with
  | .done _ | .separator _ [] => .error .missingCommand
  | .separator _ (word :: _) => .error (.unknownCommand word)
  | .request request => return request
  | .word before text rest =>
      match Verb.names.lookup text with
      | none => if text = "help" then readTopic rest else .error (.unknownCommand text)
      | some verb =>
          match ← readBehind verb.arity (rest.length + 1) {} [] rest with
          | .error request => return request
          | .ok (behind, words) =>
              if words.length < verb.arity then
                .error .missingWord
              else
                return .run ⟨before.merge behind, verb, words⟩

end TreeQuery.Command
