import TreeQuery.Command.Arguments
import TreeQuery.Command.Run
import TreeQuery.Diagnostic
import TreeQuery.Grammar.Field
import TreeQuery.Grammar.Kind
import TreeQuery.Grammar.Layout
import TreeQuery.Grammar.Word
import TreeQuery.Json.Basic
import TreeQuery.Json.Cursor
import TreeQuery.Json.Numeral
import TreeQuery.Json.Pointer
import TreeQuery.Json.Printer
import TreeQuery.Json.Reader
import TreeQuery.Load
import TreeQuery.Load.Document
import TreeQuery.Load.Error
import TreeQuery.Load.Mismatch
import TreeQuery.Load.Record
import TreeQuery.Load.Value
import TreeQuery.Main
import TreeQuery.Node.Basic
import TreeQuery.Node.Equality
import TreeQuery.Number.Arithmetic
import TreeQuery.Number.Bits
import TreeQuery.Number.Decimal
import TreeQuery.Number.Double
import TreeQuery.Number.Layout
import TreeQuery.Number.Parse
import TreeQuery.Number.Power
import TreeQuery.Number.Printed
import TreeQuery.Number.Word
import TreeQuery.Proofs.Command.Answer
import TreeQuery.Proofs.Command.Selection
import TreeQuery.Proofs.Context
import TreeQuery.Proofs.Json.Bounded
import TreeQuery.Proofs.Json.Canonical
import TreeQuery.Proofs.Json.Pointer
import TreeQuery.Proofs.Json.Reader
import TreeQuery.Proofs.Json.Text
import TreeQuery.Proofs.Load.Acceptance
import TreeQuery.Proofs.Load.Depth
import TreeQuery.Proofs.Load.Estree
import TreeQuery.Proofs.Load.Ignored
import TreeQuery.Proofs.Load.Literals
import TreeQuery.Proofs.Load.Locality
import TreeQuery.Proofs.Load.Members
import TreeQuery.Proofs.Load.Order
import TreeQuery.Proofs.Load.Paths
import TreeQuery.Proofs.Load.Rendering
import TreeQuery.Proofs.Load.Value
import TreeQuery.Proofs.Load.Yield
import TreeQuery.Proofs.Node.Equality
import TreeQuery.Proofs.Number.Digits
import TreeQuery.Proofs.Number.Equality
import TreeQuery.Proofs.Number.Exact
import TreeQuery.Proofs.Number.Finite
import TreeQuery.Proofs.Number.Grammar
import TreeQuery.Proofs.Number.Large
import TreeQuery.Proofs.Number.Layout
import TreeQuery.Proofs.Number.Literal
import TreeQuery.Proofs.Number.Nearest
import TreeQuery.Proofs.Number.Radix
import TreeQuery.Proofs.Number.Recovery
import TreeQuery.Proofs.Number.RoundTrip
import TreeQuery.Proofs.Number.Rounding
import TreeQuery.Proofs.Number.Scanner
import TreeQuery.Proofs.Number.Shortest
import TreeQuery.Proofs.Number.Word
import TreeQuery.Proofs.Result
import TreeQuery.Proofs.Scope.Assignment
import TreeQuery.Proofs.Scope.Binder
import TreeQuery.Proofs.Scope.Enclosing
import TreeQuery.Proofs.Scope.Names
import TreeQuery.Proofs.Scope.Reference
import TreeQuery.Proofs.Scope.Renaming
import TreeQuery.Proofs.Scope.Reports
import TreeQuery.Proofs.Scope.Siblings
import TreeQuery.Proofs.Scope.Skeleton
import TreeQuery.Proofs.Scope.Unread
import TreeQuery.Proofs.Scope.Walk
import TreeQuery.Proofs.Static.Bitwise
import TreeQuery.Proofs.Static.Concatenation
import TreeQuery.Proofs.Static.Course
import TreeQuery.Proofs.Static.Equality
import TreeQuery.Proofs.Static.Monotone
import TreeQuery.Proofs.Static.Relational
import TreeQuery.Proofs.Static.Reports
import TreeQuery.Proofs.Static.Run
import TreeQuery.Proofs.Text.Units
import TreeQuery.Proofs.Text.Utf8
import TreeQuery.Proofs.Trail
import TreeQuery.Query.Call
import TreeQuery.Query.Property
import TreeQuery.Scope.Binding
import TreeQuery.Scope.Usage
import TreeQuery.Static.Comparison
import TreeQuery.Static.Evaluate
import TreeQuery.Static.Numeric
import TreeQuery.Static.Operator
import TreeQuery.Static.Primitive
import TreeQuery.Text.Blank
import TreeQuery.Text.Hidden
import TreeQuery.Text.Quoted
import TreeQuery.Text.Units
import TreeQuery.Text.Utf8
