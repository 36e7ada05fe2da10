import TreeQuery.Grammar.Kind

/-!
# Diagnostics

What a query has to report besides its answer. Reports are values, listed in the order in which the
query comes upon them.
-/

namespace TreeQuery

/-- How much a diagnostic matters. -/
inductive Level where
  /-- Of interest when a query is debugged. -/
  | debug
  /-- Of interest when a query is followed step by step. -/
  | trace
deriving DecidableEq, Repr

/-- The name of a level. -/
def Level.label : Level → String
  | .debug => "DEBUG"
  | .trace => "TRACE"

/-- A report of a query. -/
inductive Diagnostic where
  /-- The search for an identifier met an unsupported node. -/
  | unsupportedNode (identifier : String)
  /-- An evaluation met a node of this kind, or an unsupported one, which has no static value. -/
  | notStatic (kind : Option Kind)
deriving DecidableEq, Repr

namespace Diagnostic

/-- How much a diagnostic matters. -/
def level : Diagnostic → Level
  | .unsupportedNode _ => .debug
  | .notStatic _ => .trace

/-- The query that reports it. -/
def target : Diagnostic → String
  | .unsupportedNode _ => "ast_utils_js::usage"
  | .notStatic _ => "ast_utils_js::eval"

/-- What is reported. -/
def message : Diagnostic → String
  | .unsupportedNode _ => "unsupported node in identifier search"
  | .notStatic _ => "not a static expression"

/-- The name of a kind in a report. -/
def shownTag (kind : Option Kind) : String :=
  (kind.map Kind.typeName).getD "unsupported"

/-- The name and the value of what the report is about. -/
def subject : Diagnostic → String × String
  | .unsupportedNode identifier => ("identifier", identifier)
  | .notStatic kind => ("node", shownTag kind)

end Diagnostic

end TreeQuery
