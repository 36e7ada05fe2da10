import TreeQuery.Proofs.Trail
import TreeQuery.Static.Evaluate

/-!
# Evaluation at run time

A run evaluates an expression from left to right. It asks an oracle about every node that static
evaluation has no rule for, and the oracle answers with a value or with an abrupt completion. A
static value is what every run yields, unless the run is cut short inside the operand of a `void`,
which static evaluation does not look at.
-/

namespace TreeQuery

/-- How a run is cut short. -/
inductive Abrupt where
  /-- Outside every operand of a `void`. -/
  | exposed
  /-- Inside the operand of a `void`. -/
  | discarded
deriving DecidableEq, Repr

/-- What the nodes without a rule do: at each moment each of them has a value or completes
abruptly. A moment is the number of answers given before, so equal nodes may differ. -/
abbrev Oracle : Type :=
  Nat → Node → Option Primitive

/-- A computation that may consult an oracle and may be cut short. -/
abbrev Run (α : Type) : Type :=
  StateT Nat (Except Abrupt) α

/-- Asks the oracle about a node. -/
def Oracle.consult (oracle : Oracle) (node : Node) : Run Primitive := fun moment =>
  match oracle moment node with
  | some value => .ok (value, moment + 1)
  | none => .error .exposed

/-- The value that the rules give, if they give one; the oracle's answer about the node if not. -/
def Oracle.settle (oracle : Oracle) (node : Node) : Option Primitive → Run Primitive
  | some value => pure value
  | none => oracle.consult node

/-- Runs the operand of a `void` and forgets its value. -/
def Run.discard (run : Run Primitive) : Run Primitive := fun moment =>
  match run moment with
  | .ok (_, later) => .ok (.undefined, later)
  | .error _ => .error .discarded

/-- Chunks and texts in turn. -/
def interleave : List String → List String → String
  | [], _ => ""
  | chunk :: chunks, [] => chunk ++ interleave chunks []
  | chunk :: chunks, text :: texts => chunk ++ text ++ interleave chunks texts

mutual

/-- The run of a node. -/
def Node.run (oracle : Oracle) : Node → Run Primitive
  | node@(.mk .literal (.cons (.literal value) (.cons _ (.cons (.regex regex)
      (.cons (.optText bigint) .nil))))) =>
      oracle.settle node (Static.literalValue? value regex bigint)
  | node@(.mk .identifier (.cons (.text name) .nil)) =>
      if name = "undefined" then pure .undefined else oracle.consult node
  | node@(.mk .templateLiteral (.cons (.chunks chunks) (.cons (.nodes expressions) .nil))) =>
      match chunks.mapM fun chunk => chunk.text.cooked with
      | some cooked => do
          let values ← Node.runAll oracle expressions
          pure (.text (interleave cooked (values.map Primitive.toText)))
      | none => oracle.consult node
  | node@(.mk .unaryExpression (.cons (.choice operator) (.cons (.node argument) .nil))) =>
      if operator = .void then
        (argument.run oracle).discard
      else if operator = .delete then
        oracle.consult node
      else do
        let value ← argument.run oracle
        oracle.settle node <| operator.apply? value
  | node@(.mk .binaryExpression (.cons (.choice operator) (.cons (.node left)
      (.cons (.node right) .nil)))) =>
      if operator = .memberOf ∨ operator = .instanceOf then
        oracle.consult node
      else do
        let a ← left.run oracle
        let b ← right.run oracle
        oracle.settle node <| operator.apply? a b
  | .mk .logicalExpression (.cons (.choice operator) (.cons (.node left)
      (.cons (.node right) .nil))) => do
      let a ← left.run oracle
      match operator with
      | .and => if a.toBool then right.run oracle else pure a
      | .or => if a.toBool then pure a else right.run oracle
      | .coalesce => if a.isNullish then right.run oracle else pure a
  | .mk .conditionalExpression (.cons (.node test) (.cons (.node consequent)
      (.cons (.node alternate) .nil))) => do
      let a ← test.run oracle
      if a.toBool then consequent.run oracle else alternate.run oracle
  | .mk .parenthesizedExpression (.cons (.node expression) .nil) => expression.run oracle
  | node => oracle.consult node

/-- The runs of several nodes, one after the other. -/
def Node.runAll (oracle : Oracle) : List Node → Run (List Primitive)
  | [] => pure []
  | node :: nodes => do
      let value ← node.run oracle
      let values ← Node.runAll oracle nodes
      pure (value :: values)

end

/-! ## The rules, form by form -/

namespace Node

theorem run_literal (oracle : Oracle) (value : LiteralValue) (raw : Option String)
    (regex : Option Regex) (bigint : Option String) :
    (make .literal (value, raw, regex, bigint, ())).run oracle =
      oracle.settle (make .literal (value, raw, regex, bigint, ()))
        (Static.literalValue? value regex bigint) :=
  rfl

theorem run_identifier (oracle : Oracle) (name : String) :
    (make .identifier (name, ())).run oracle =
      if name = "undefined" then pure .undefined
      else oracle.consult (make .identifier (name, ())) :=
  rfl

theorem run_template (oracle : Oracle) {chunks : List Chunk} {cooked : List String}
    (cooks : chunks.mapM (fun chunk => chunk.text.cooked) = some cooked)
    (expressions : List Node) :
    (make .templateLiteral (chunks, expressions, ())).run oracle =
      (do
        let values ← runAll oracle expressions
        pure (.text (interleave cooked (values.map Primitive.toText)))) := by
  change (match chunks.mapM fun chunk => chunk.text.cooked with
    | some cooked => do
        let values ← runAll oracle expressions
        pure (.text (interleave cooked (values.map Primitive.toText)))
    | none => oracle.consult _ : Run Primitive) = _
  rw [cooks]

theorem run_unary (oracle : Oracle) (operator : UnaryOperator) (argument : Node) :
    (make .unaryExpression (operator, argument, ())).run oracle =
      if operator = .void then (argument.run oracle).discard
      else if operator = .delete then
        oracle.consult (make .unaryExpression (operator, argument, ()))
      else (do
        let value ← argument.run oracle
        oracle.settle (make .unaryExpression (operator, argument, ())) <| operator.apply? value) :=
  rfl

theorem run_binary (oracle : Oracle) (operator : BinaryOperator) (left right : Node) :
    (make .binaryExpression (operator, left, right, ())).run oracle =
      if operator = .memberOf ∨ operator = .instanceOf then
        oracle.consult (make .binaryExpression (operator, left, right, ()))
      else (do
        let a ← left.run oracle
        let b ← right.run oracle
        oracle.settle (make .binaryExpression (operator, left, right, ())) <|
          operator.apply? a b) :=
  rfl

theorem run_logical (oracle : Oracle) (operator : LogicalOperator) (left right : Node) :
    (make .logicalExpression (operator, left, right, ())).run oracle =
      (do
        let a ← left.run oracle
        if operator.decidedBy a then pure a else right.run oracle) := by
  cases operator with
  | and =>
      change (left.run oracle >>= fun a => if a.toBool then right.run oracle else pure a) = _
      congr 1
      funext a
      cases truth : a.toBool <;> simp [LogicalOperator.decidedBy, truth]
  | or => rfl
  | coalesce =>
      change (left.run oracle >>= fun a => if a.isNullish then right.run oracle else pure a) = _
      congr 1
      funext a
      cases nullish : a.isNullish <;> simp [LogicalOperator.decidedBy, nullish]

theorem run_conditional (oracle : Oracle) (test consequent alternate : Node) :
    (make .conditionalExpression (test, consequent, alternate, ())).run oracle =
      (do
        let a ← test.run oracle
        if a.toBool then consequent.run oracle else alternate.run oracle) :=
  rfl

theorem run_parenthesized (oracle : Oracle) (expression : Node) :
    (make .parenthesizedExpression (expression, ())).run oracle = expression.run oracle :=
  rfl

theorem evaluate_identifier (name : String) :
    (make .identifier (name, ())).evaluate =
      if name = "undefined" then .ok .undefined else .error (.node (some .identifier)) :=
  rfl

theorem foldList_algebra (nodes : List Node) :
    foldList Static.algebra nodes = nodes.map evaluate := by
  induction nodes with
  | nil => rfl
  | cons node nodes induction => simp [foldList, evaluate, induction]

theorem evaluate_template (chunks : List Chunk) (expressions : List Node) :
    (make .templateLiteral (chunks, expressions, ())).evaluate =
      Static.template "" chunks (expressions.map evaluate) := by
  rw [← foldList_algebra]
  rfl

theorem evaluate_literal (value : LiteralValue) (raw : Option String) (regex : Option Regex)
    (bigint : Option String) :
    (make .literal (value, raw, regex, bigint, ())).evaluate =
      Static.literal value regex bigint :=
  rfl

theorem evaluate_unary (operator : UnaryOperator) (argument : Node) :
    (make .unaryExpression (operator, argument, ())).evaluate =
      Static.unary operator argument.evaluate :=
  rfl

theorem evaluate_binary (operator : BinaryOperator) (left right : Node) :
    (make .binaryExpression (operator, left, right, ())).evaluate =
      Static.binary operator left.evaluate right.evaluate :=
  rfl

theorem evaluate_logical (operator : LogicalOperator) (left right : Node) :
    (make .logicalExpression (operator, left, right, ())).evaluate =
      Static.logical operator left.evaluate right.evaluate :=
  rfl

theorem evaluate_conditional (test consequent alternate : Node) :
    (make .conditionalExpression (test, consequent, alternate, ())).evaluate =
      Static.conditional test.evaluate consequent.evaluate alternate.evaluate :=
  rfl

theorem evaluate_parenthesized (expression : Node) :
    (make .parenthesizedExpression (expression, ())).evaluate = expression.evaluate :=
  rfl

end Node

/-! ## Static outcomes -/

namespace Static

theorem unary_eq_ok {operator : UnaryOperator} {operand : Evaluation} {value : Primitive}
    (notVoid : operator ≠ .void) (known : unary operator operand = .ok value) :
    ∃ a, operand = .ok a ∧ operator.apply? a = some value := by
  cases operand with
  | error obstacle => simp [unary, notVoid, Bind.bind, Except.bind] at known
  | ok a =>
      refine ⟨a, rfl, ?_⟩
      cases applied : operator.apply? a with
      | none => simp [unary, notVoid, Bind.bind, Except.bind, applied] at known
      | some result => simpa [unary, notVoid, Bind.bind, Except.bind, applied] using known

theorem binary_eq_ok {operator : BinaryOperator} {left right : Evaluation} {value : Primitive}
    (known : binary operator left right = .ok value) :
    ∃ a b, left = .ok a ∧ right = .ok b ∧ operator.apply? a b = some value := by
  cases left with
  | error obstacle => simp [binary, Bind.bind, Except.bind] at known
  | ok a =>
      cases right with
      | error obstacle => simp [binary, Bind.bind, Except.bind] at known
      | ok b =>
          refine ⟨a, b, rfl, rfl, ?_⟩
          cases applied : operator.apply? a b with
          | none => simp [binary, Bind.bind, Except.bind, applied] at known
          | some result => simpa [binary, Bind.bind, Except.bind, applied] using known

theorem logical_eq_ok {operator : LogicalOperator} {left right : Evaluation} {value : Primitive}
    (known : logical operator left right = .ok value) :
    ∃ a, left = .ok a ∧ if operator.decidedBy a then a = value else right = .ok value := by
  cases left with
  | error obstacle => simp [logical, Bind.bind, Except.bind] at known
  | ok a =>
      refine ⟨a, rfl, ?_⟩
      cases decided : operator.decidedBy a <;>
        simpa [logical, Bind.bind, Except.bind, decided] using known

theorem conditional_eq_ok {test consequent alternate : Evaluation} {value : Primitive}
    (known : conditional test consequent alternate = .ok value) :
    ∃ a, test = .ok a ∧ (if a.toBool then consequent else alternate) = .ok value := by
  cases test with
  | error obstacle => simp [conditional, Bind.bind, Except.bind] at known
  | ok a => exact ⟨a, rfl, by simpa [conditional, Bind.bind, Except.bind] using known⟩

/-- A template with a value has all its chunks cooked and all its substitutions known, when there is
one chunk more than substitutions. -/
theorem template_eq_ok {start : String} {chunks : List Chunk} {evaluations : List Evaluation}
    {value : Primitive} (fits : chunks.length = evaluations.length + 1)
    (known : template start chunks evaluations = .ok value) :
    ∃ (cooked : List String) (values : List Primitive),
      chunks.mapM (fun chunk => chunk.text.cooked) = some cooked ∧
      evaluations = values.map Except.ok ∧
        value = .text (start ++ interleave cooked (values.map Primitive.toText)) := by
  induction evaluations generalizing start chunks with
  | nil =>
      obtain ⟨chunk, rfl⟩ := List.length_eq_one_iff.mp fits
      cases cooks : chunk.text.cooked with
      | none => simp [template, cooks] at known
      | some text =>
          refine ⟨[text], [], by simp [cooks], rfl, ?_⟩
          simpa [template, cooks, interleave] using known.symm
  | cons evaluation evaluations induction =>
      cases chunks with
      | nil => cases fits
      | cons chunk chunks =>
          cases cooks : chunk.text.cooked with
          | none => simp [template, cooks] at known
          | some text =>
              cases evaluation with
              | error obstacle => simp [template, cooks, Bind.bind, Except.bind] at known
              | ok a =>
                  simp only [template, cooks, Bind.bind, Except.bind] at known
                  obtain ⟨cooked, values, cookedAll, rfl, rfl⟩ :=
                    induction (by simpa using fits) known
                  refine ⟨text :: cooked, a :: values, ?_, rfl, ?_⟩
                  · simp [List.mapM_cons, cooks, cookedAll]
                  · simp [interleave, String.append_assoc]

end Static

/-! ## Soundness -/

namespace Run

/-- A run yields a value from every moment on, unless it is cut short inside the operand of a
`void`. -/
def Yields {α : Type} (run : Run α) (value : α) : Prop :=
  ∀ moment, (∃ later, run moment = .ok (value, later)) ∨ run moment = .error .discarded

theorem yields_pure {α : Type} (value : α) : (pure value : Run α).Yields value :=
  fun moment => Or.inl ⟨moment, rfl⟩

theorem Yields.bind {α β : Type} {run : Run α} {next : α → Run β} {a : α} {b : β}
    (first : run.Yields a) (second : (next a).Yields b) : (run >>= next).Yields b := by
  intro moment
  rcases first moment with ⟨later, completes⟩ | cut
  · have step : (run >>= next) moment = next a later := by
      simp [Bind.bind, StateT.bind, completes, Except.bind]
    rw [step]
    exact second later
  · right
    simp [Bind.bind, StateT.bind, cut, Except.bind]

theorem yields_discard {run : Run Primitive} : run.discard.Yields .undefined := by
  intro moment
  rw [discard]
  cases run moment with
  | ok result => exact Or.inl ⟨result.2, rfl⟩
  | error _ => exact Or.inr rfl

end Run

/-- A template has one chunk more than substitutions. -/
def Node.TemplateFits : Node → Prop
  | .mk .templateLiteral parts => parts.row.1.length = parts.row.2.1.length + 1
  | _ => True

namespace Node

/-- Every run of a node yields its static value, if it has one. -/
def IsSound (oracle : Oracle) (node : Node) : Prop :=
  ∀ value, node.evaluate = .ok value → (node.run oracle).Yields value

section Sound

variable {oracle : Oracle}

theorem isSound_literal (value : LiteralValue) (raw : Option String) (regex : Option Regex)
    (bigint : Option String) : (make .literal (value, raw, regex, bigint, ())).IsSound oracle := by
  intro result known
  rw [evaluate_literal, Static.literal] at known
  rw [run_literal]
  cases primitive : Static.literalValue? value regex bigint with
  | none => simp [primitive] at known
  | some yielded =>
      obtain rfl : yielded = result := by simpa [primitive] using known
      exact Run.yields_pure yielded

theorem isSound_identifier (name : String) : (make .identifier (name, ())).IsSound oracle := by
  intro value known
  rw [evaluate_identifier] at known
  rw [run_identifier]
  split at known
  · rename_i isUndefined
    obtain rfl := Except.ok.inj known
    rw [if_pos isUndefined]
    exact Run.yields_pure _
  · cases known

theorem yields_runAll {nodes : List Node} {values : List Primitive}
    (known : nodes.map evaluate = values.map Except.ok)
    (each : ∀ node ∈ nodes, node.IsSound oracle) : (runAll oracle nodes).Yields values := by
  induction nodes generalizing values with
  | nil =>
      obtain rfl : values = [] := by simpa using known.symm
      exact Run.yields_pure []
  | cons node nodes induction =>
      cases values with
      | nil => cases known
      | cons value values =>
          obtain ⟨knownFirst, knownRest⟩ := List.cons.inj known
          have first := each node List.mem_cons_self value knownFirst
          have rest := induction knownRest fun node member =>
            each node (List.mem_cons_of_mem _ member)
          exact first.bind (rest.bind (Run.yields_pure _))

theorem isSound_template {chunks : List Chunk} {expressions : List Node}
    (fits : (make .templateLiteral (chunks, expressions, ())).TemplateFits)
    (each : ∀ expression ∈ expressions, expression.IsSound oracle) :
    (make .templateLiteral (chunks, expressions, ())).IsSound oracle := by
  intro value known
  rw [evaluate_template] at known
  have lengths : chunks.length = (expressions.map evaluate).length + 1 := by
    rw [List.length_map]
    exact fits
  obtain ⟨cooked, values, cooks, evaluated, rfl⟩ := Static.template_eq_ok lengths known
  rw [run_template oracle cooks, String.empty_append]
  exact (yields_runAll evaluated each).bind (Run.yields_pure _)

theorem isSound_unary (operator : UnaryOperator) {argument : Node}
    (operand : argument.IsSound oracle) :
    (make .unaryExpression (operator, argument, ())).IsSound oracle := by
  intro value known
  rw [evaluate_unary] at known
  rw [run_unary]
  by_cases isVoid : operator = .void
  · obtain rfl : Primitive.undefined = value := by simpa [Static.unary, isVoid] using known
    rw [if_pos isVoid]
    exact Run.yields_discard
  · obtain ⟨a, knownArgument, applied⟩ := Static.unary_eq_ok isVoid known
    have notDelete : operator ≠ .delete := by
      rintro rfl
      cases applied
    rw [if_neg isVoid, if_neg notDelete]
    refine (operand a knownArgument).bind ?_
    rw [applied]
    exact Run.yields_pure value

theorem isSound_binary (operator : BinaryOperator) {left right : Node}
    (leftSound : left.IsSound oracle) (rightSound : right.IsSound oracle) :
    (make .binaryExpression (operator, left, right, ())).IsSound oracle := by
  intro value known
  rw [evaluate_binary] at known
  obtain ⟨a, b, knownLeft, knownRight, applied⟩ := Static.binary_eq_ok known
  have notObject : ¬ (operator = .memberOf ∨ operator = .instanceOf) := by
    rintro (rfl | rfl) <;> cases applied
  rw [run_binary, if_neg notObject]
  refine (leftSound a knownLeft).bind ((rightSound b knownRight).bind ?_)
  rw [applied]
  exact Run.yields_pure value

theorem isSound_logical (operator : LogicalOperator) {left right : Node}
    (leftSound : left.IsSound oracle) (rightSound : right.IsSound oracle) :
    (make .logicalExpression (operator, left, right, ())).IsSound oracle := by
  intro value known
  rw [evaluate_logical] at known
  obtain ⟨a, knownLeft, decision⟩ := Static.logical_eq_ok known
  rw [run_logical]
  refine (leftSound a knownLeft).bind ?_
  cases decided : operator.decidedBy a with
  | true =>
      obtain rfl : a = value := by simpa [decided] using decision
      exact Run.yields_pure a
  | false =>
      have knownRight : right.evaluate = .ok value := by simpa [decided] using decision
      exact rightSound value knownRight

theorem isSound_conditional {test consequent alternate : Node} (testSound : test.IsSound oracle)
    (consequentSound : consequent.IsSound oracle) (alternateSound : alternate.IsSound oracle) :
    (make .conditionalExpression (test, consequent, alternate, ())).IsSound oracle := by
  intro value known
  rw [evaluate_conditional] at known
  obtain ⟨a, knownTest, chosen⟩ := Static.conditional_eq_ok known
  rw [run_conditional]
  refine (testSound a knownTest).bind ?_
  cases truth : a.toBool with
  | true =>
      have knownConsequent : consequent.evaluate = .ok value := by simpa [truth] using chosen
      exact consequentSound value knownConsequent
  | false =>
      have knownAlternate : alternate.evaluate = .ok value := by simpa [truth] using chosen
      exact alternateSound value knownAlternate

end Sound

/-- A node is sound when its templates fit. Nodes without a rule have no static value. -/
theorem isSound {oracle : Oracle} (node : Node) :
    node.Throughout TemplateFits → node.IsSound oracle := by
  induction node using induction_on_make with
  | unsupported => intro _ value known; cases known
  | make kind row induction =>
      intro fits
      have below : ∀ {field child}, (field, child) ∈ (Parts.ofRow row).children →
          child.IsSound oracle :=
        fun member => induction _ _ member (fits.child member)
      cases kind with
      | literal =>
          obtain ⟨value, raw, regex, bigint, ⟨⟩⟩ := row
          exact isSound_literal value raw regex bigint
      | identifier =>
          obtain ⟨name, ⟨⟩⟩ := row
          exact isSound_identifier name
      | templateLiteral =>
          obtain ⟨chunks, expressions, ⟨⟩⟩ := row
          refine isSound_template fits.root fun expression member => ?_
          have inRow : (Field.expressions, expression) ∈
              expressions.map (Field.expressions, ·) ++ [] := by simpa using member
          exact below inRow
      | unaryExpression =>
          obtain ⟨operator, argument, ⟨⟩⟩ := row
          exact isSound_unary operator (below (.head _))
      | binaryExpression =>
          obtain ⟨operator, left, right, ⟨⟩⟩ := row
          exact isSound_binary operator (below (.head _)) (below (.tail _ (.head _)))
      | logicalExpression =>
          obtain ⟨operator, left, right, ⟨⟩⟩ := row
          exact isSound_logical operator (below (.head _)) (below (.tail _ (.head _)))
      | conditionalExpression =>
          obtain ⟨test, consequent, alternate, ⟨⟩⟩ := row
          exact isSound_conditional (below (.head _)) (below (.tail _ (.head _)))
            (below (.tail _ (.tail _ (.head _))))
      | parenthesizedExpression =>
          obtain ⟨expression, ⟨⟩⟩ := row
          intro value known
          rw [evaluate_parenthesized] at known
          rw [run_parenthesized]
          exact below (.head _) value known
      | _ => intro value known; cases known

/-! ## Completeness -/

/-- The static fragment: primitive literals, `undefined`, and the operations on them that do not ask
about objects. What `discards` admits may stand under a `void` as well. -/
inductive IsStatic (discards : Node → Prop) : Node → Prop where
  | literal {value : LiteralValue} {raw : Option String}
      (primitive : ∀ json, value ≠ .composite json) :
      IsStatic discards (make .literal (value, raw, none, none, ()))
  | undefined : IsStatic discards (make .identifier ("undefined", ()))
  | template {chunks : List Chunk} {expressions : List Node}
      (cooked : ∀ chunk ∈ chunks, chunk.text.cooked.isSome = true)
      (substitutions : ∀ expression ∈ expressions, IsStatic discards expression) :
      IsStatic discards (make .templateLiteral (chunks, expressions, ()))
  | unary {operator : UnaryOperator} {argument : Node} (notDelete : operator ≠ .delete)
      (operand : IsStatic discards argument) :
      IsStatic discards (make .unaryExpression (operator, argument, ()))
  | void {argument : Node} (discarded : discards argument) :
      IsStatic discards (make .unaryExpression (.void, argument, ()))
  | binary {operator : BinaryOperator} {left right : Node} (notIn : operator ≠ .memberOf)
      (notInstance : operator ≠ .instanceOf) (leftStatic : IsStatic discards left)
      (rightStatic : IsStatic discards right) :
      IsStatic discards (make .binaryExpression (operator, left, right, ()))
  | logical {operator : LogicalOperator} {left right : Node} (leftStatic : IsStatic discards left)
      (rightStatic : IsStatic discards right) :
      IsStatic discards (make .logicalExpression (operator, left, right, ()))
  | conditional {test consequent alternate : Node} (testStatic : IsStatic discards test)
      (consequentStatic : IsStatic discards consequent)
      (alternateStatic : IsStatic discards alternate) :
      IsStatic discards (make .conditionalExpression (test, consequent, alternate, ()))
  | parenthesized {expression : Node} (inner : IsStatic discards expression) :
      IsStatic discards (make .parenthesizedExpression (expression, ()))

/-- A node has a static value, and its run is that value whatever the oracle says, provided that
nothing but static expressions stands under a `void`. -/
def IsSettled (discards : Node → Prop) (node : Node) : Prop :=
  ∃ value, node.evaluate = .ok value ∧
    ((∀ argument, ¬ discards argument) → ∀ oracle, node.run oracle = pure value)

theorem settled_all {discards : Node → Prop} {nodes : List Node}
    (each : ∀ node ∈ nodes, node.IsSettled discards) :
    ∃ values : List Primitive, nodes.map evaluate = values.map Except.ok ∧
      ((∀ argument, ¬ discards argument) → ∀ oracle, runAll oracle nodes = pure values) := by
  induction nodes with
  | nil => exact ⟨[], rfl, fun _ _ => rfl⟩
  | cons node nodes induction =>
      obtain ⟨value, known, runs⟩ := each node List.mem_cons_self
      obtain ⟨values, knownRest, runsRest⟩ := induction fun node member =>
        each node (List.mem_cons_of_mem _ member)
      refine ⟨value :: values, by simp [known, knownRest], fun strict oracle => ?_⟩
      simp [runAll, runs strict oracle, runsRest strict oracle]

end Node

theorem Static.template_of_known {chunks : List Chunk}
    (cooked : ∀ chunk ∈ chunks, chunk.text.cooked.isSome = true) (values : List Primitive) :
    ∃ texts, chunks.mapM (fun chunk => chunk.text.cooked) = some texts ∧
      ∀ start, Static.template start chunks (values.map Except.ok) =
        .ok (.text (start ++ interleave texts (values.map Primitive.toText))) := by
  induction chunks generalizing values with
  | nil => exact ⟨[], rfl, fun start => by simp [Static.template, interleave]⟩
  | cons chunk chunks induction =>
      obtain ⟨text, cooks⟩ := Option.isSome_iff_exists.mp (cooked chunk List.mem_cons_self)
      obtain ⟨texts, cooksRest, known⟩ := induction
        (fun chunk member => cooked chunk (List.mem_cons_of_mem _ member)) values.tail
      refine ⟨text :: texts, by simp [List.mapM_cons, cooks, cooksRest], fun start => ?_⟩
      cases values with
      | nil =>
          have next := known (start ++ text)
          simpa [Static.template, cooks, interleave, String.append_assoc] using next
      | cons value values =>
          have next := known (start ++ text ++ value.toText)
          simpa [Static.template, cooks, interleave, Bind.bind, Except.bind,
            String.append_assoc] using next

theorem UnaryOperator.exists_apply?_eq {operator : UnaryOperator} (notDelete : operator ≠ .delete)
    (a : Primitive) : ∃ value, operator.apply? a = some value := by
  cases operator <;> first | exact ⟨_, rfl⟩ | exact absurd rfl notDelete

theorem BinaryOperator.exists_apply?_eq {operator : BinaryOperator} (notIn : operator ≠ .memberOf)
    (notInstance : operator ≠ .instanceOf) (a b : Primitive) :
    ∃ value, operator.apply? a b = some value := by
  cases operator <;> first | exact ⟨_, rfl⟩ | exact absurd rfl notIn | exact absurd rfl notInstance

namespace Node

theorem IsStatic.isSettled {discards : Node → Prop} {node : Node}
    (isStatic : node.IsStatic discards) : node.IsSettled discards := by
  induction isStatic with
  | @literal value raw primitive =>
      cases value with
      | composite json => exact absurd rfl (primitive json)
      | _ => exact ⟨_, rfl, fun _ _ => rfl⟩
  | undefined => exact ⟨.undefined, rfl, fun _ _ => rfl⟩
  | @template chunks expressions cooked _ induction =>
      obtain ⟨values, known, runs⟩ := settled_all induction
      obtain ⟨texts, cooks, value⟩ := Static.template_of_known cooked values
      refine ⟨.text (interleave texts (values.map Primitive.toText)), ?_, fun strict oracle => ?_⟩
      · rw [evaluate_template, known, value, String.empty_append]
      · rw [run_template oracle cooks, runs strict oracle]
        rfl
  | @unary operator argument notDelete _ induction =>
      obtain ⟨a, known, runs⟩ := induction
      by_cases isVoid : operator = .void
      · refine ⟨.undefined, ?_, fun strict oracle => ?_⟩
        · rw [evaluate_unary, Static.unary, if_pos isVoid]
        · rw [run_unary, if_pos isVoid, runs strict oracle]
          rfl
      · obtain ⟨value, applied⟩ := UnaryOperator.exists_apply?_eq notDelete a
        refine ⟨value, ?_, fun strict oracle => ?_⟩
        · rw [evaluate_unary, known]
          simp [Static.unary, isVoid, Bind.bind, Except.bind, applied]
        · rw [run_unary, if_neg isVoid, if_neg notDelete, runs strict oracle, pure_bind, applied]
          rfl
  | void discarded =>
      exact ⟨.undefined, rfl, fun strict => absurd discarded (strict _)⟩
  | @binary operator left right notIn notInstance _ _ leftInduction rightInduction =>
      obtain ⟨a, knownLeft, runsLeft⟩ := leftInduction
      obtain ⟨b, knownRight, runsRight⟩ := rightInduction
      obtain ⟨value, applied⟩ := BinaryOperator.exists_apply?_eq notIn notInstance a b
      refine ⟨value, ?_, fun strict oracle => ?_⟩
      · rw [evaluate_binary, knownLeft, knownRight]
        simp [Static.binary, Bind.bind, Except.bind, applied]
      · rw [run_binary, if_neg (by simp [notIn, notInstance]), runsLeft strict oracle,
          runsRight strict oracle, pure_bind, pure_bind, applied]
        rfl
  | @logical operator left right _ _ leftInduction rightInduction =>
      obtain ⟨a, knownLeft, runsLeft⟩ := leftInduction
      obtain ⟨b, knownRight, runsRight⟩ := rightInduction
      refine ⟨if operator.decidedBy a then a else b, ?_, fun strict oracle => ?_⟩
      · rw [evaluate_logical, knownLeft, knownRight]
        cases decided : operator.decidedBy a <;>
          simp [Static.logical, Bind.bind, Except.bind, decided]
      · rw [run_logical, runsLeft strict oracle, runsRight strict oracle, pure_bind]
        split <;> rfl
  | @conditional test consequent alternate _ _ _ testInduction thenInduction elseInduction =>
      obtain ⟨a, knownTest, runsTest⟩ := testInduction
      obtain ⟨b, knownThen, runsThen⟩ := thenInduction
      obtain ⟨c, knownElse, runsElse⟩ := elseInduction
      refine ⟨if a.toBool then b else c, ?_, fun strict oracle => ?_⟩
      · rw [evaluate_conditional, knownTest, knownThen, knownElse]
        cases truth : a.toBool <;> simp [Static.conditional, Bind.bind, Except.bind, truth]
      · rw [run_conditional, runsTest strict oracle, runsThen strict oracle,
          runsElse strict oracle, pure_bind]
        split <;> rfl
  | parenthesized _ induction => exact induction

/-- A static value is what every run yields that is not cut short inside the operand of a `void`,
and every expression of the static fragment has one. -/
theorem evaluate_sound_and_complete :
    (∀ (node : Node) (value : Primitive), node.Throughout TemplateFits →
      node.evaluate = .ok value → ∀ (oracle : Oracle) (moment : Nat),
        (∃ later, node.run oracle moment = .ok (value, later)) ∨
          node.run oracle moment = .error .discarded) ∧
      ∀ (discards : Node → Prop) (node : Node), node.IsStatic discards →
        ∃ value, node.evaluate = .ok value ∧
          ((∀ argument, ¬ discards argument) → ∀ oracle, node.run oracle = pure value) := by
  constructor
  · intro node value fits known oracle moment
    exact node.isSound fits value known moment
  · intro discards node isStatic
    exact isStatic.isSettled

/-- The value of `void f ?? "x"` does not depend on what `f` does. -/
theorem evaluate_coalesce_void :
    let discarded := make .unaryExpression (.void, make .identifier ("f", ()), ())
    let default := make .literal (.text "x", none, none, none, ())
    let node := make .logicalExpression (.coalesce, discarded, default, ())
    (∀ (oracle : Oracle) (moment : Nat),
      (∃ later, node.run oracle moment = .ok (.text "x", later)) ∨
        node.run oracle moment = .error .discarded) ∧
      (node.IsStatic fun _ => True) ∧
        ∃ value, node.evaluate = .ok value := by
  intro discarded default node
  have fits : node.Throughout TemplateFits := by
    refine .mk trivial ?_
    rintro member (_ | ⟨_, _ | ⟨_, ⟨⟩⟩⟩)
    · refine .mk trivial ?_
      rintro member (_ | ⟨_, ⟨⟩⟩)
      exact .mk trivial nofun
    · exact .mk trivial nofun
  have isStatic : node.IsStatic fun _ => True :=
    .logical (.void trivial) (.literal nofun)
  refine ⟨evaluate_sound_and_complete.1 node (.text "x") fits rfl, isStatic, ?_⟩
  obtain ⟨value, known, -⟩ := evaluate_sound_and_complete.2 (fun _ => True) node isStatic
  exact ⟨value, known⟩

end Node

end TreeQuery
