import TreeQuery.Proofs.Static.Run

/-!
# The course of an evaluation

The course of an evaluation lists what it does, in order: it enters nodes, takes the chunks of
templates, and applies operators to operands that it knows. Whatever is entered and lies outside the
rules is reported there and then. A course ends with the outcome of the evaluation: with the value,
if nothing stopped it, and otherwise with the first act that comes upon an obstacle.
-/

namespace TreeQuery

/-! ## Acts -/

/-- Something that an evaluation does. -/
inductive Act where
  /-- Enters a node. -/
  | enter (node : Node)
  /-- Takes the text of a template chunk. -/
  | take (chunk : Chunk)
  /-- Applies an operator to the value of its operand. -/
  | unary (operator : UnaryOperator) (argument : Node) (operand : Primitive)
  /-- Applies an operator to the values of its operands. -/
  | binary (operator : BinaryOperator) (left right : Node) (a b : Primitive)

/-- Whether evaluation has a rule for nodes of a kind. -/
def Kind.hasRule : Kind → Bool
  | .literal | .identifier | .templateLiteral | .unaryExpression | .binaryExpression
  | .logicalExpression | .conditionalExpression | .parenthesizedExpression => true
  | _ => false

/-- Whether a node lies outside the rules: it is unsupported or of a kind without a rule, or an
identifier that does not name `undefined`. -/
def Node.isOutside : Node → Bool
  | .mk .identifier parts => parts.row.1 != "undefined"
  | .mk kind _ => !kind.hasRule
  | .unsupported => true

/-- Whether a literal holds a list or an object. -/
def LiteralValue.isComposite : LiteralValue → Bool
  | .composite _ => true
  | _ => false

/-- Whether a node is a literal without a primitive value: a regular expression, a large integer, a
list or an object. -/
def Node.isOpaqueLiteral : Node → Bool
  | .mk .literal parts =>
      let (value, _, regex, bigint, _) := parts.row
      regex.isSome || bigint.isSome || value.isComposite
  | _ => false

namespace Act

/-- What is reported when an act is done. -/
def reports : Act → List Diagnostic
  | .enter node => if node.isOutside then [.notStatic node.kind?] else []
  | _ => []

/-- An act that stops an evaluation without a report. -/
def StopsSilently : Act → Prop
  | .enter node => node.isOpaqueLiteral = true
  | .take chunk => chunk.text.cooked = none
  | .unary operator .. => operator = .delete
  | .binary operator .. => operator = .memberOf ∨ operator = .instanceOf

/-- An act that stops an evaluation with a report. -/
def StopsReported : Act → Prop
  | .enter node => node.isOutside = true
  | _ => False

/-- An operator is applied to what its operands evaluate to. -/
def KnowsOperands : Act → Prop
  | .unary _ argument operand => argument.evaluate = .ok operand
  | .binary _ left right a b => left.evaluate = .ok a ∧ right.evaluate = .ok b
  | _ => True

end Act

/-! ## Courses -/

/-- What an evaluation does, and the value that it comes to, if it is not stopped. -/
structure Course where
  /-- What it does, in order. -/
  acts : List Act
  /-- What it comes to. -/
  value? : Option Primitive

namespace Course

/-- All that is reported on the way. -/
def reports (course : Course) : List Diagnostic :=
  course.acts.flatMap Act.reports

/-- An act and then a course. -/
def behind (act : Act) (course : Course) : Course :=
  ⟨act :: course.acts, course.value?⟩

/-- A course and, if it comes to a value, what is done with the value. -/
def andThen (course : Course) (next : Primitive → Course) : Course :=
  match course.value? with
  | some value => ⟨course.acts ++ (next value).acts, (next value).value?⟩
  | none => course

/-- Chunks are taken in turn with the substitutions, whose courses are given. -/
def template (start : String) : List Chunk → List Course → Course
  | [], _ => ⟨[], some (.text start)⟩
  | chunk :: chunks, substitutions =>
      match chunk.text.cooked with
      | none => ⟨[.take chunk], none⟩
      | some cooked =>
          behind (.take chunk) <|
            match substitutions with
            | [] => template (start ++ cooked) chunks []
            | substitution :: substitutions =>
                substitution.andThen fun value =>
                  template (start ++ cooked ++ value.toText) chunks substitutions

end Course

mutual

/-- The course of the evaluation of a node. -/
def Node.course : Node → Course
  | node@(.mk .literal (.cons (.literal value) (.cons _ (.cons (.regex regex)
      (.cons (.optText bigint) .nil))))) =>
      ⟨[.enter node], Static.literalValue? value regex bigint⟩
  | node@(.mk .identifier (.cons (.text name) .nil)) =>
      ⟨[.enter node], if name = "undefined" then some .undefined else none⟩
  | node@(.mk .templateLiteral (.cons (.chunks chunks) (.cons (.nodes expressions) .nil))) =>
      .behind (.enter node) (.template "" chunks (Node.courses expressions))
  | node@(.mk .unaryExpression (.cons (.choice operator) (.cons (.node argument) .nil))) =>
      .behind (.enter node) <|
        if operator = .void then
          ⟨[], some .undefined⟩
        else
          argument.course.andThen fun operand =>
            ⟨[.unary operator argument operand], operator.apply? operand⟩
  | node@(.mk .binaryExpression (.cons (.choice operator) (.cons (.node left)
      (.cons (.node right) .nil)))) =>
      .behind (.enter node) <|
        left.course.andThen fun a =>
          right.course.andThen fun b =>
            ⟨[.binary operator left right a b], operator.apply? a b⟩
  | node@(.mk .logicalExpression (.cons (.choice operator) (.cons (.node left)
      (.cons (.node right) .nil)))) =>
      .behind (.enter node) <|
        left.course.andThen fun a => if operator.decidedBy a then ⟨[], some a⟩ else right.course
  | node@(.mk .conditionalExpression (.cons (.node test) (.cons (.node consequent)
      (.cons (.node alternate) .nil)))) =>
      .behind (.enter node) <|
        test.course.andThen fun a => if a.toBool then consequent.course else alternate.course
  | node@(.mk .parenthesizedExpression (.cons (.node expression) .nil)) =>
      .behind (.enter node) expression.course
  | node => ⟨[.enter node], none⟩

/-- The courses of the evaluations of several nodes. -/
def Node.courses : List Node → List Course
  | [] => []
  | node :: nodes => node.course :: Node.courses nodes

end

/-! ## The rules, form by form -/

namespace Node

theorem course_literal (value : LiteralValue) (raw : Option String) (regex : Option Regex)
    (bigint : Option String) :
    (make .literal (value, raw, regex, bigint, ())).course =
      ⟨[.enter (make .literal (value, raw, regex, bigint, ()))],
        Static.literalValue? value regex bigint⟩ :=
  rfl

theorem course_identifier (name : String) :
    (make .identifier (name, ())).course =
      ⟨[.enter (make .identifier (name, ()))],
        if name = "undefined" then some .undefined else none⟩ :=
  rfl

theorem courses_eq_map (nodes : List Node) : courses nodes = nodes.map course := by
  induction nodes with
  | nil => rfl
  | cons node nodes induction => rw [courses, induction, List.map_cons]

theorem course_template (chunks : List Chunk) (expressions : List Node) :
    (make .templateLiteral (chunks, expressions, ())).course =
      .behind (.enter (make .templateLiteral (chunks, expressions, ())))
        (.template "" chunks (expressions.map course)) := by
  rw [← courses_eq_map]
  rfl

theorem course_unary (operator : UnaryOperator) (argument : Node) :
    (make .unaryExpression (operator, argument, ())).course =
      .behind (.enter (make .unaryExpression (operator, argument, ())))
        (if operator = .void then ⟨[], some .undefined⟩
        else argument.course.andThen fun operand =>
          ⟨[.unary operator argument operand], operator.apply? operand⟩) :=
  rfl

theorem course_binary (operator : BinaryOperator) (left right : Node) :
    (make .binaryExpression (operator, left, right, ())).course =
      .behind (.enter (make .binaryExpression (operator, left, right, ())))
        (left.course.andThen fun a => right.course.andThen fun b =>
          ⟨[.binary operator left right a b], operator.apply? a b⟩) :=
  rfl

theorem course_logical (operator : LogicalOperator) (left right : Node) :
    (make .logicalExpression (operator, left, right, ())).course =
      .behind (.enter (make .logicalExpression (operator, left, right, ())))
        (left.course.andThen fun a =>
          if operator.decidedBy a then ⟨[], some a⟩ else right.course) :=
  rfl

theorem course_conditional (test consequent alternate : Node) :
    (make .conditionalExpression (test, consequent, alternate, ())).course =
      .behind (.enter (make .conditionalExpression (test, consequent, alternate, ())))
        (test.course.andThen fun a =>
          if a.toBool then consequent.course else alternate.course) :=
  rfl

theorem course_parenthesized (expression : Node) :
    (make .parenthesizedExpression (expression, ())).course =
      .behind (.enter (make .parenthesizedExpression (expression, ()))) expression.course :=
  rfl

end Node

/-! ## How courses end -/

/-- The obstacle that an act comes upon. -/
def Act.obstacle? : Act → Option Obstacle
  | .enter node =>
      if node.isOutside then some (.node node.kind?)
      else if node.isOpaqueLiteral then some .literal
      else none
  | .take chunk => if chunk.text.cooked = none then some .chunk else none
  | .unary operator .. => if operator = .delete then some .operator else none
  | .binary operator .. =>
      if operator = .memberOf ∨ operator = .instanceOf then some .operator else none

namespace Act

/-- What is reported on an act is what is reported about its obstacle. -/
theorem reports_eq (act : Act) :
    act.reports = (act.obstacle?.map Obstacle.diagnostics).getD [] := by
  cases act with
  | enter node =>
      rw [reports, obstacle?]
      split
      · rfl
      · split <;> rfl
  | take chunk =>
      rw [obstacle?]
      split <;> rfl
  | unary operator argument operand =>
      rw [obstacle?]
      split <;> rfl
  | binary operator left right a b =>
      rw [obstacle?]
      split <;> rfl

theorem stops_iff (act : Act) :
    act.obstacle? ≠ none ↔ act.StopsReported ∨ act.StopsSilently := by
  cases act with
  | enter node =>
      simp only [obstacle?, StopsReported, StopsSilently]
      split <;> simp_all
  | take chunk => simp [obstacle?, StopsReported, StopsSilently]
  | unary operator argument operand => simp [obstacle?, StopsReported, StopsSilently]
  | binary operator left right a b =>
      simp only [obstacle?, StopsReported, StopsSilently]
      split <;> simp_all

theorem free_iff (act : Act) :
    act.obstacle? = none ↔ ¬ act.StopsReported ∧ ¬ act.StopsSilently := by
  rw [← not_or, ← stops_iff, ne_eq, Classical.not_not]

end Act

namespace Course

/-- A course ends with an outcome. With a value, nothing stopped it; without one, its last act comes
upon the obstacle, and no act before comes upon any. -/
def EndsWith (course : Course) : Evaluation → Prop
  | .ok value => course.value? = some value ∧ ∀ act ∈ course.acts, act.obstacle? = none
  | .error obstacle => course.value? = none ∧ ∃ before last,
      course.acts = before ++ [last] ∧ last.obstacle? = some obstacle ∧
        ∀ act ∈ before, act.obstacle? = none

/-- A course ends with an outcome and applies operators to nothing but what their operands evaluate
to. -/
structure Follows (course : Course) (evaluation : Evaluation) : Prop where
  knows : ∀ act ∈ course.acts, act.KnowsOperands
  ends : course.EndsWith evaluation

theorem follows_value (value : Primitive) : Follows ⟨[], some value⟩ (.ok value) :=
  ⟨List.forall_mem_nil _, rfl, List.forall_mem_nil _⟩

theorem follows_stop {act : Act} {obstacle : Obstacle} (knows : act.KnowsOperands)
    (stops : act.obstacle? = some obstacle) : Follows ⟨[act], none⟩ (.error obstacle) :=
  ⟨List.forall_mem_singleton.mpr knows, rfl, [], act, rfl, stops, List.forall_mem_nil _⟩

theorem follows_act {act : Act} {value : Primitive} (knows : act.KnowsOperands)
    (free : act.obstacle? = none) : Follows ⟨[act], some value⟩ (.ok value) :=
  ⟨List.forall_mem_singleton.mpr knows, rfl, List.forall_mem_singleton.mpr free⟩

theorem Follows.behind {act : Act} {course : Course} {evaluation : Evaluation}
    (knows : act.KnowsOperands) (free : act.obstacle? = none)
    (follows : course.Follows evaluation) : (course.behind act).Follows evaluation := by
  refine ⟨List.forall_mem_cons.mpr ⟨knows, follows.knows⟩, ?_⟩
  cases evaluation with
  | ok value => exact ⟨follows.ends.1, List.forall_mem_cons.mpr ⟨free, follows.ends.2⟩⟩
  | error obstacle =>
      obtain ⟨unknown, before, last, acts, stops, others⟩ := follows.ends
      exact ⟨unknown, act :: before, last, congrArg (act :: ·) acts, stops,
        List.forall_mem_cons.mpr ⟨free, others⟩⟩

/-- What is stopped stays stopped, and what comes to a value goes on with it. -/
theorem Follows.andThen {course : Course} {evaluation : Evaluation} {next : Primitive → Course}
    {rest : Primitive → Evaluation} (first : course.Follows evaluation)
    (later : ∀ value, evaluation = .ok value → (next value).Follows (rest value)) :
    (course.andThen next).Follows (evaluation >>= rest) := by
  cases evaluation with
  | error obstacle =>
      have stopped : course.andThen next = course := by rw [Course.andThen, first.ends.1]
      rw [stopped]
      exact first
  | ok value =>
      obtain ⟨known, free⟩ := first.ends
      have follows := later value rfl
      have goesOn : course.andThen next =
          ⟨course.acts ++ (next value).acts, (next value).value?⟩ := by rw [Course.andThen, known]
      rw [goesOn]
      refine ⟨List.forall_mem_append.mpr ⟨first.knows, follows.knows⟩, ?_⟩
      change EndsWith _ (rest value)
      have ends := follows.ends
      cases outcome : rest value with
      | ok result =>
          rw [outcome] at ends
          exact ⟨ends.1, List.forall_mem_append.mpr ⟨free, ends.2⟩⟩
      | error obstacle =>
          rw [outcome] at ends
          obtain ⟨unknown, before, last, acts, stops, others⟩ := ends
          exact ⟨unknown, course.acts ++ before, last, by simp [acts], stops,
            List.forall_mem_append.mpr ⟨free, others⟩⟩

/-- Chunks and substitutions are gone through until a chunk has no text or a substitution stops. -/
theorem follows_template {expressions : List Node} {chunks : List Chunk} {start : String}
    (each : ∀ expression ∈ expressions, expression.course.Follows expression.evaluate) :
    (template start chunks (expressions.map Node.course)).Follows
      (Static.template start chunks (expressions.map Node.evaluate)) := by
  induction chunks generalizing expressions start with
  | nil => exact follows_value (.text start)
  | cons chunk chunks induction =>
      cases cooks : chunk.text.cooked with
      | none =>
          simp only [template, Static.template, cooks]
          exact follows_stop trivial (if_pos cooks)
      | some cooked =>
          have free : (Act.take chunk).obstacle? = none := if_neg (by simp [cooks])
          cases expressions with
          | nil =>
              simp only [template, Static.template, cooks, List.map_nil]
              exact (induction each).behind trivial free
          | cons expression expressions =>
              obtain ⟨first, others⟩ := List.forall_mem_cons.mp each
              simp only [template, Static.template, cooks, List.map_cons]
              exact (first.andThen fun value _ => induction others).behind trivial free

end Course

namespace Node

/-- The evaluation of a node takes its course. -/
def IsFollowed (node : Node) : Prop :=
  node.course.Follows node.evaluate

theorem isOpaqueLiteral_make (value : LiteralValue) (raw : Option String) (regex : Option Regex)
    (bigint : Option String) :
    (make .literal (value, raw, regex, bigint, ())).isOpaqueLiteral =
      (Static.literalValue? value regex bigint).isNone := by
  cases regex <;> cases bigint <;> cases value <;> rfl

theorem isFollowed_literal (value : LiteralValue) (raw : Option String) (regex : Option Regex)
    (bigint : Option String) : (make .literal (value, raw, regex, bigint, ())).IsFollowed := by
  rw [IsFollowed, evaluate_literal, Static.literal, course_literal]
  have opaqueIff := isOpaqueLiteral_make value raw regex bigint
  cases primitive : Static.literalValue? value regex bigint with
  | none =>
      rw [primitive] at opaqueIff
      exact Course.follows_stop trivial (if_pos opaqueIff)
  | some known =>
      rw [primitive] at opaqueIff
      exact Course.follows_act trivial (if_neg (by simp [opaqueIff]))

theorem isFollowed_identifier (name : String) : (make .identifier (name, ())).IsFollowed := by
  rw [IsFollowed, evaluate_identifier, course_identifier]
  have outsideIff : (make .identifier (name, ())).isOutside = (name != "undefined") := rfl
  by_cases isUndefined : name = "undefined"
  · subst isUndefined
    exact Course.follows_act trivial rfl
  · rw [if_neg isUndefined, if_neg isUndefined]
    exact Course.follows_stop trivial (if_pos (by simp [outsideIff, isUndefined]))

theorem isFollowed_unary (operator : UnaryOperator) {argument : Node}
    (operand : argument.IsFollowed) :
    (make .unaryExpression (operator, argument, ())).IsFollowed := by
  rw [IsFollowed, evaluate_unary, course_unary, Static.unary]
  refine .behind trivial rfl ?_
  by_cases isVoid : operator = .void
  · rw [if_pos isVoid, if_pos isVoid]
    exact Course.follows_value .undefined
  · rw [if_neg isVoid, if_neg isVoid]
    refine operand.andThen fun value known => ?_
    by_cases isDelete : operator = .delete
    · subst isDelete
      exact Course.follows_stop known rfl
    · obtain ⟨result, applied⟩ := UnaryOperator.exists_apply?_eq isDelete value
      rw [applied]
      exact Course.follows_act known (if_neg isDelete)

theorem isFollowed_binary (operator : BinaryOperator) {left right : Node}
    (leftFollowed : left.IsFollowed) (rightFollowed : right.IsFollowed) :
    (make .binaryExpression (operator, left, right, ())).IsFollowed := by
  rw [IsFollowed, evaluate_binary, course_binary, Static.binary]
  refine .behind trivial rfl (leftFollowed.andThen fun a knownLeft =>
    rightFollowed.andThen fun b knownRight => ?_)
  by_cases asks : operator = .memberOf ∨ operator = .instanceOf
  · have unknown : operator.apply? a b = none := by rcases asks with rfl | rfl <;> rfl
    rw [unknown]
    exact Course.follows_stop ⟨knownLeft, knownRight⟩ (if_pos asks)
  · obtain ⟨result, applied⟩ := BinaryOperator.exists_apply?_eq
      (fun isIn => asks (.inl isIn)) (fun isInstance => asks (.inr isInstance)) a b
    rw [applied]
    exact Course.follows_act ⟨knownLeft, knownRight⟩ (if_neg asks)

theorem isFollowed_logical (operator : LogicalOperator) {left right : Node}
    (leftFollowed : left.IsFollowed) (rightFollowed : right.IsFollowed) :
    (make .logicalExpression (operator, left, right, ())).IsFollowed := by
  rw [IsFollowed, evaluate_logical, course_logical, Static.logical]
  refine .behind trivial rfl (leftFollowed.andThen fun a _ => ?_)
  split
  · exact Course.follows_value a
  · exact rightFollowed

theorem isFollowed_conditional {test consequent alternate : Node} (testFollowed : test.IsFollowed)
    (consequentFollowed : consequent.IsFollowed) (alternateFollowed : alternate.IsFollowed) :
    (make .conditionalExpression (test, consequent, alternate, ())).IsFollowed := by
  rw [IsFollowed, evaluate_conditional, course_conditional, Static.conditional]
  refine .behind trivial rfl (testFollowed.andThen fun a _ => ?_)
  split
  · exact consequentFollowed
  · exact alternateFollowed

/-- A kind without a rule stops the evaluation at once. -/
theorem isFollowed (node : Node) : node.IsFollowed := by
  induction node using induction_on_make with
  | unsupported => exact Course.follows_stop trivial rfl
  | make kind row below =>
      cases kind with
      | literal =>
          obtain ⟨value, raw, regex, bigint, ⟨⟩⟩ := row
          exact isFollowed_literal value raw regex bigint
      | identifier =>
          obtain ⟨name, ⟨⟩⟩ := row
          exact isFollowed_identifier name
      | templateLiteral =>
          obtain ⟨chunks, expressions, ⟨⟩⟩ := row
          rw [IsFollowed, evaluate_template, course_template]
          refine .behind trivial rfl (Course.follows_template fun expression member => ?_)
          have inRow : (Field.expressions, expression) ∈
              expressions.map (Field.expressions, ·) ++ [] := by simpa using member
          exact below _ _ inRow
      | unaryExpression =>
          obtain ⟨operator, argument, ⟨⟩⟩ := row
          exact isFollowed_unary operator (below _ _ (.head _))
      | binaryExpression =>
          obtain ⟨operator, left, right, ⟨⟩⟩ := row
          exact isFollowed_binary operator (below _ _ (.head _)) (below _ _ (.tail _ (.head _)))
      | logicalExpression =>
          obtain ⟨operator, left, right, ⟨⟩⟩ := row
          exact isFollowed_logical operator (below _ _ (.head _)) (below _ _ (.tail _ (.head _)))
      | conditionalExpression =>
          obtain ⟨test, consequent, alternate, ⟨⟩⟩ := row
          exact isFollowed_conditional (below _ _ (.head _)) (below _ _ (.tail _ (.head _)))
            (below _ _ (.tail _ (.tail _ (.head _))))
      | parenthesizedExpression =>
          obtain ⟨expression, ⟨⟩⟩ := row
          rw [IsFollowed, evaluate_parenthesized, course_parenthesized]
          exact (below _ _ (.head _)).behind trivial rfl
      | _ => exact Course.follows_stop trivial rfl

end Node

end TreeQuery
