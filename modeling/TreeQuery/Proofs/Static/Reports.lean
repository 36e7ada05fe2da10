import TreeQuery.Command.Run
import TreeQuery.Proofs.Static.Course
import TreeQuery.Proofs.Static.Monotone

/-!
# Reports of evaluations

An evaluation ends with the first act that stops it, so an outcome that is known comes without a
report, and one that is not with at most one, which names what was entered last. A query for a name,
a source, or yes or no evaluates little enough to report at most once as well.
-/

namespace TreeQuery

/-! ## One evaluation -/

namespace Course

theorem flatMap_reports_eq_nil {acts : List Act} (free : ∀ act ∈ acts, act.obstacle? = none) :
    acts.flatMap Act.reports = [] := by
  rw [List.flatMap_eq_nil_iff]
  intro act present
  rw [act.reports_eq, free act present]
  rfl

/-- What is reported on the way is what is reported about the outcome. -/
theorem EndsWith.reports_eq {course : Course} {evaluation : Evaluation}
    (ends : course.EndsWith evaluation) : course.reports = evaluation.diagnostics := by
  cases evaluation with
  | ok value => exact flatMap_reports_eq_nil ends.2
  | error obstacle =>
      obtain ⟨-, before, last, acts, stops, free⟩ := ends
      rw [reports, acts, List.flatMap_append, flatMap_reports_eq_nil free, List.nil_append,
        List.flatMap_singleton, last.reports_eq, stops]
      rfl

theorem EndsWith.value?_eq {course : Course} {evaluation : Evaluation}
    (ends : course.EndsWith evaluation) : course.value? = evaluation.toOption := by
  cases evaluation with
  | ok value => exact ends.1
  | error obstacle => exact ends.1

end Course

theorem Evaluation.length_diagnostics_le (evaluation : Evaluation) :
    evaluation.diagnostics.length ≤ 1 := by
  cases evaluation with
  | ok value => exact Nat.zero_le 1
  | error obstacle => cases obstacle <;> simp [diagnostics, Obstacle.diagnostics]

namespace Node

theorem reports_eq (node : Node) : node.course.reports = node.evaluate.diagnostics :=
  node.isFollowed.ends.reports_eq

theorem length_reports_le (node : Node) : node.course.reports.length ≤ 1 := by
  rw [reports_eq]
  exact node.evaluate.length_diagnostics_le

/-- An evaluation without a value did nothing that stops it before the last thing that it did. -/
theorem exists_last_act {node : Node} (unknown : node.evaluate.toOption = none) :
    ∃ before last, node.course.acts = before ++ [last] ∧
      (last.StopsReported ∨ last.StopsSilently) ∧ last.KnowsOperands ∧
        ∀ act ∈ before, ¬ act.StopsReported ∧ ¬ act.StopsSilently := by
  obtain ⟨knows, ends⟩ := node.isFollowed
  cases outcome : node.evaluate with
  | ok value =>
      rw [outcome] at unknown
      cases unknown
  | error obstacle =>
      rw [outcome] at ends
      obtain ⟨-, before, last, acts, stops, free⟩ := ends
      rw [acts] at knows
      exact ⟨before, last, acts, last.stops_iff.mp (by simp [stops]), knows last (by simp),
        fun act present => act.free_iff.mp (free act present)⟩

/-- The reports of a course that stops in its last act are those of this act. -/
theorem reports_of_last {node : Node} {before : List Act} {last : Act}
    (acts : node.course.acts = before ++ [last])
    (free : ∀ act ∈ before, ¬ act.StopsReported ∧ ¬ act.StopsSilently) :
    node.course.reports = last.reports := by
  have nothing : before.flatMap Act.reports = [] :=
    Course.flatMap_reports_eq_nil fun act present => act.free_iff.mpr (free act present)
  rw [Course.reports, acts, List.flatMap_append, nothing, List.nil_append,
    List.flatMap_singleton]

theorem reports_of_literal {node : Node} (isLiteral : node.kind? = some .literal) :
    node.course.reports = [] := by
  cases node with
  | unsupported => cases isLiteral
  | mk kind parts =>
      obtain rfl : kind = .literal := Option.some.inj isLiteral
      rw [← make_row]
      obtain ⟨value, raw, regex, bigint, ⟨⟩⟩ := parts.row
      rfl

end Node

/-! ## Queries -/

/-- The literal that names the property of a member access. -/
def MemberAccess.literals (access : MemberAccess) : List Node :=
  if access.property.kind? = some .literal then [access.property] else []

/-- The property of a member access when it is computed. -/
def MemberAccess.computedProperty (access : MemberAccess) : List Node :=
  if access.computed then [access.property] else []

namespace Command.Verb

/-- The nodes that a query evaluates. -/
def evaluated (verb : Verb) (node : Node) : List Node :=
  match verb with
  | .eval => [node]
  | .propertyName => node.memberAccess?.toList.flatMap MemberAccess.literals
  | .isPromise =>
      (node.unchained.call?.bind fun call => call.callee.memberAccess?).toList.flatMap
        MemberAccess.computedProperty
  | .contains | .requireSource | .isStaticRequire | .isFunctionExpression => []

/-- What the evaluations of a query report. -/
def reports (verb : Verb) (node : Node) : List Diagnostic :=
  (verb.evaluated node).flatMap fun inner => inner.course.reports

/-- The queries that answer with a name, a source, or yes or no. -/
def predicates : List Verb :=
  [.propertyName, .requireSource, .isStaticRequire, .isPromise, .isFunctionExpression]

end Command.Verb

theorem MemberAccess.diagnostics_promise (access : MemberAccess) :
    access.promise.diagnostics =
      access.computedProperty.flatMap fun inner => inner.course.reports := by
  rw [promise, staticName, computedProperty]
  cases access.computed with
  | false => cases access.property.identifierName? <;> rfl
  | true =>
      rw [if_pos rfl, if_pos rfl, List.flatMap_singleton, Node.reports_eq]
      cases access.property.evaluate <;> rfl

namespace Command.Verb

theorem reports_propertyName (node : Node) : reports .propertyName node = [] := by
  rw [reports, List.flatMap_eq_nil_iff]
  intro inner present
  obtain ⟨access, -, present⟩ := List.mem_flatMap.mp present
  rw [MemberAccess.literals] at present
  split at present
  · rename_i isLiteral
    obtain rfl := List.mem_singleton.mp present
    exact Node.reports_of_literal isLiteral
  · cases present

theorem reports_isPromise (node : Node) : reports .isPromise node = node.promise.diagnostics := by
  rw [reports, evaluated, Node.promise]
  cases called : node.unchained.call? with
  | none => cases node.unchained.construction? <;> rfl
  | some call =>
      simp only [Option.bind_some]
      cases accessed : call.callee.memberAccess? with
      | none => rfl
      | some access =>
          simp only [Option.toList_some, List.flatMap_singleton]
          exact access.diagnostics_promise.symm

/-- What a query other than the search reports comes from the nodes that it evaluates. -/
theorem diagnostics_answer {verb : Verb} (notSearch : verb ≠ .contains) (words : List String)
    (node : Node) : (verb.answer words node).diagnostics = verb.reports node := by
  cases verb with
  | contains => exact absurd rfl notSearch
  | eval =>
      rw [reports, evaluated, List.flatMap_singleton, Node.reports_eq]
      rfl
  | propertyName => rw [reports_propertyName]; rfl
  | isPromise => rw [reports_isPromise]; rfl
  | _ => rfl

/-- Only the query for promises reports, and it evaluates one node at most. -/
theorem length_reports_predicates_le (node : Node) :
    (predicates.flatMap fun verb => verb.reports node).length ≤ 1 := by
  have others : (predicates.flatMap fun verb => verb.reports node) = reports .isPromise node := by
    simp only [predicates, List.flatMap_cons, List.flatMap_nil, reports_propertyName]
    simp [reports, evaluated]
  rw [others, reports, evaluated]
  cases node.unchained.call?.bind fun call => call.callee.memberAccess? with
  | none => exact Nat.zero_le 1
  | some access =>
      rw [Option.toList_some, List.flatMap_singleton, MemberAccess.computedProperty]
      split
      · rw [List.flatMap_singleton]
        exact access.property.length_reports_le
      · exact Nat.zero_le 1

end Command.Verb

namespace Node

/-- An evaluation has the value and the reports of its course. It reports at most once, and not at
all when it has a value. With a report, it has none, and the last thing that it did was to enter the
first node on its way that lies outside the rules, which the report names. Without a value and
without a report, the last thing that it did, and the only one to stop it, was to enter a literal
without a primitive value, to take a chunk without a text, or to apply an operator that asks about
objects to operands that it knew. The queries for a name, a source, or yes or no report at most once
together. -/
theorem evaluate_reports_once (node : Node) :
    (node.course.value? = node.evaluate.toOption ∧
      node.course.reports = node.evaluate.diagnostics) ∧
    node.course.reports.length ≤ 1 ∧
    (node.evaluate.toOption ≠ none → node.course.reports = []) ∧
    (∀ report ∈ node.course.reports, node.evaluate.toOption = none ∧
      ∃ before culprit, node.course.acts = before ++ [.enter culprit] ∧
        culprit.isOutside = true ∧ report = .notStatic culprit.kind? ∧
          ∀ other, .enter other ∈ before → other.isOutside = false) ∧
    (node.evaluate.toOption = none → node.course.reports = [] →
      ∃ before last, node.course.acts = before ++ [last] ∧ last.StopsSilently ∧
        last.KnowsOperands ∧ ∀ act ∈ before, ¬ act.StopsReported ∧ ¬ act.StopsSilently) ∧
    (∀ verb ∈ Command.Verb.predicates, ∀ words,
      (verb.answer words node).diagnostics = verb.reports node) ∧
    (Command.Verb.predicates.flatMap fun verb => verb.reports node).length ≤ 1 := by
  have silent : node.evaluate.toOption ≠ none → node.course.reports = [] := by
    intro known
    rw [node.reports_eq]
    cases outcome : node.evaluate with
    | ok value => rfl
    | error obstacle => exact absurd (by rw [outcome]; rfl) known
  refine ⟨⟨node.isFollowed.ends.value?_eq, node.reports_eq⟩, node.length_reports_le, silent,
    fun report present => ?_, fun unknown nothing => ?_, fun verb listed words => ?_,
    Command.Verb.length_reports_predicates_le node⟩
  · have unknown : node.evaluate.toOption = none :=
      Classical.byContradiction fun known => by
        rw [silent known] at present
        cases present
    obtain ⟨before, last, acts, -, -, free⟩ := exists_last_act unknown
    rw [reports_of_last acts free] at present
    cases last with
    | enter culprit =>
        rw [Act.reports] at present
        split at present
        · rename_i outside
          exact ⟨unknown, before, culprit, acts, outside, List.mem_singleton.mp present,
            fun other entered => Bool.eq_false_iff.mpr (free _ entered).1⟩
        · cases present
    | _ => cases present
  · obtain ⟨before, last, acts, stops, knows, free⟩ := exists_last_act unknown
    refine ⟨before, last, acts, stops.resolve_left fun reported => ?_, knows, free⟩
    rw [reports_of_last acts free] at nothing
    cases last with
    | enter culprit =>
        have outside : culprit.isOutside = true := reported
        rw [Act.reports, if_pos outside] at nothing
        cases nothing
    | _ => cases reported
  · refine Command.Verb.diagnostics_answer ?_ words node
    rintro rfl
    revert listed
    decide

/-- Of `null in f`, `delete null` and `!null`, only the first is reported, as an identifier. The
second is stopped by its operator. -/
theorem evaluate_reports_once_unary :
    let null := Primitive.null.toNode
    let unknown := make .binaryExpression (.memberOf, null, make .identifier ("f", ()), ())
    let deletion := make .unaryExpression (.delete, null, ())
    let negation := make .unaryExpression (.not, null, ())
    Diagnostic.notStatic (some .identifier) ∈ unknown.course.reports ∧
      unknown.evaluate.toOption = none ∧
      deletion.evaluate.toOption = none ∧ deletion.course.reports = [] ∧
      (∃ before last, deletion.course.acts = before ++ [last] ∧ last.StopsSilently) ∧
      negation.evaluate.toOption ≠ none ∧ negation.course.reports = [] ∧
      Command.Verb.isPromise ∈ Command.Verb.predicates ∧
      (Command.Verb.isPromise.answer [] negation).diagnostics = [] := by
  intro null unknown deletion negation
  have reported : Diagnostic.notStatic (some .identifier) ∈ unknown.course.reports := .head _
  have known : negation.evaluate.toOption ≠ none := nofun
  have listed : Command.Verb.isPromise ∈ Command.Verb.predicates := by decide
  obtain ⟨-, -, -, onReport, -, -, -⟩ := evaluate_reports_once unknown
  obtain ⟨-, -, -, -, onSilence, -, -⟩ := evaluate_reports_once deletion
  obtain ⟨-, -, onValue, -, -, onQuery, -⟩ := evaluate_reports_once negation
  obtain ⟨before, last, acts, stops, -, -⟩ := onSilence rfl rfl
  exact ⟨reported, (onReport _ reported).1, rfl, rfl, ⟨before, last, acts, stops⟩, known,
    onValue known, listed, onQuery _ listed []⟩

end Node

end TreeQuery
