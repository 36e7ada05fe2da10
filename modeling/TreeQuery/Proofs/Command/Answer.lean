import TreeQuery.Command.Run
import TreeQuery.Proofs.Json.Text

/-!
# What the line of an answer tells

The line for the result of an evaluation says whether the value is known, its type, and the value.
The type tells apart what JSON cannot: a number that is written as a string from a string, and a
value that is left out from one that is `null`. So the line determines the result, down to the sign
of a zero.
-/

namespace TreeQuery

namespace Command

open Json (compact compactMembers stringText doubleText)

/-! ## The parts of a line -/

/-- What follows the type: the value, unless it is left out. -/
def lineEnd : Option Json → List Char
  | none => ['\x7d']
  | some json => ',' :: (stringText "value" ++ ':' :: (compact json ++ ['\x7d']))

/-- The line of a known value. -/
theorem compact_knowledge_some (value : Primitive) :
    compact (knowledge (some value)) =
      '\x7b' :: (stringText "known" ++ ':' :: (compact (.bool true) ++ ',' :: (stringText "type" ++
        ':' :: (stringText value.typeName ++ lineEnd (primitiveJson? value))))) := by
  rw [knowledge]
  cases primitiveJson? value <;>
    simp only [Option.map_none, Option.map_some, Option.toList_none, Option.toList_some, compact,
      compactMembers, lineEnd, List.append_assoc, List.cons_append, List.nil_append]

/-- A known value has another line than an unknown one. -/
theorem compact_knowledge_none_ne (value : Primitive) :
    compact (knowledge none) ≠ compact (knowledge (some value)) := by
  rw [compact_knowledge_some]
  intro same
  simp only [knowledge, compact, compactMembers, List.cons_append, List.append_assoc,
    List.cons.injEq, List.append_cancel_left_eq, true_and] at same
  exact absurd same.1 (by decide)

/-- The line of a known value tells its type, and then the value. -/
theorem eq_of_compact_knowledge {value other : Primitive}
    (same : compact (knowledge (some value)) = compact (knowledge (some other))) :
    value.typeName = other.typeName ∧
      lineEnd (primitiveJson? value) = lineEnd (primitiveJson? other) := by
  rw [compact_knowledge_some, compact_knowledge_some] at same
  simp only [List.cons.injEq, List.append_cancel_left_eq, true_and] at same
  exact Json.stringText_append_inj same

theorem compact_eq_of_lineEnd {value other : Json}
    (same : lineEnd (some value) = lineEnd (some other)) : compact value = compact other := by
  simpa [lineEnd] using same

/-! ## Values -/

/-- Strings that stand for numbers are those of the numbers that are not finite. -/
theorem numberText_inj {x y : Double} (notFinite : x.isFinite = false)
    (otherNotFinite : y.isFinite = false) (same : numberText x = numberText y) : x = y := by
  have apart : ∀ negative, numberText .nan ≠ numberText (.infinity negative) := by decide
  have signs : ∀ negative otherNegative,
      numberText (.infinity negative) = numberText (.infinity otherNegative) →
        negative = otherNegative := by decide
  cases x with
  | finite => cases notFinite
  | nan =>
      cases y with
      | finite => cases otherNotFinite
      | nan => rfl
      | infinity negative => exact absurd same (apart negative)
  | infinity negative =>
      cases y with
      | finite => cases otherNotFinite
      | nan => exact absurd same.symm (apart negative)
      | infinity otherNegative => exact congrArg _ (signs negative otherNegative same)

theorem primitiveJson?_finite {x : Double} (finite : x.isFinite = true) :
    primitiveJson? (.number x) = some (.number (.double x)) :=
  if_pos finite

theorem primitiveJson?_notFinite {x : Double} (notFinite : x.isFinite = false) :
    primitiveJson? (.number x) = some (.string (Primitive.number x).toText) :=
  if_neg (by simp [notFinite])

/-- A number as a string differs from every number that is written as it is. -/
theorem compact_number_ne_string {x : Double} {value : String} (finite : x.isFinite = true) :
    compact (.number (.double x)) ≠ compact (.string value) := by
  intro same
  have sameHead : (doubleText x).head? = some '"' := congrArg List.head? same
  exact Json.head?_doubleText_ne finite sameHead

theorem eq_of_lineEnd_number {x y : Double}
    (same : lineEnd (primitiveJson? (.number x)) = lineEnd (primitiveJson? (.number y))) :
    x = y := by
  cases finite : x.isFinite with
  | true =>
      cases otherFinite : y.isFinite with
      | true =>
          rw [primitiveJson?_finite finite, primitiveJson?_finite otherFinite] at same
          exact Json.doubleText_inj finite otherFinite (compact_eq_of_lineEnd same)
      | false =>
          rw [primitiveJson?_finite finite, primitiveJson?_notFinite otherFinite] at same
          exact absurd (compact_eq_of_lineEnd same) (compact_number_ne_string finite)
  | false =>
      cases otherFinite : y.isFinite with
      | true =>
          rw [primitiveJson?_notFinite finite, primitiveJson?_finite otherFinite] at same
          exact absurd (compact_eq_of_lineEnd same).symm (compact_number_ne_string otherFinite)
      | false =>
          rw [primitiveJson?_notFinite finite, primitiveJson?_notFinite otherFinite] at same
          have sameText := Json.stringText_inj (compact_eq_of_lineEnd same)
          exact numberText_inj finite otherFinite (String.ofList_injective sameText)

theorem eq_of_lineEnd_text {value other : String}
    (same : lineEnd (primitiveJson? (.text value)) = lineEnd (primitiveJson? (.text other))) :
    value = other :=
  Json.stringText_inj (compact_eq_of_lineEnd same)

theorem eq_of_lineEnd_bool {value other : Bool}
    (same : lineEnd (primitiveJson? (.bool value)) = lineEnd (primitiveJson? (.bool other))) :
    value = other := by
  have table : ∀ value other : Bool,
      compact (.bool value) = compact (.bool other) → value = other := by decide
  exact table value other (compact_eq_of_lineEnd same)

/-- Two values are equal if their types have the same name and their lines end alike. -/
theorem eq_of_typeName_lineEnd {value other : Primitive}
    (sameType : value.typeName = other.typeName)
    (sameEnd : lineEnd (primitiveJson? value) = lineEnd (primitiveJson? other)) :
    value = other := by
  cases value with
  | undefined =>
      cases other with
      | undefined => rfl
      | _ => exact absurd sameType (by simp [Primitive.typeName])
  | null =>
      cases other with
      | null => rfl
      | _ => exact absurd sameType (by simp [Primitive.typeName])
  | bool value =>
      cases other with
      | bool other => exact congrArg _ (eq_of_lineEnd_bool sameEnd)
      | _ => exact absurd sameType (by simp [Primitive.typeName])
  | number x =>
      cases other with
      | number y => exact congrArg _ (eq_of_lineEnd_number sameEnd)
      | _ => exact absurd sameType (by simp [Primitive.typeName])
  | text value =>
      cases other with
      | text other => exact congrArg _ (eq_of_lineEnd_text sameEnd)
      | _ => exact absurd sameType (by simp [Primitive.typeName])

/-! ## Lines -/

/-- The line determines what is known. -/
theorem knowledge_inj {known other : Option Primitive}
    (same : compact (knowledge known) = compact (knowledge other)) : known = other := by
  cases known with
  | none =>
      cases other with
      | none => rfl
      | some value => exact absurd same (compact_knowledge_none_ne value)
  | some value =>
      cases other with
      | none => exact absurd same.symm (compact_knowledge_none_ne value)
      | some other =>
          obtain ⟨sameType, sameEnd⟩ := eq_of_compact_knowledge same
          exact congrArg some (eq_of_typeName_lineEnd sameType sameEnd)

/-- A line is printed for one result only, so the lines of two evaluations agree exactly if their
results do. The values that JSON cannot hold, both zeros, and the strings that look like such values
are all told apart. -/
theorem render_knowledge_eq_iff :
    (∀ known other : Option Primitive,
      (knowledge known).render = (knowledge other).render ↔ known = other) ∧
    (∀ (words otherWords : List String) (node other : Node),
      (Verb.eval.answer words node).value.render = (Verb.eval.answer otherWords other).value.render
        ↔ node.evaluate.toOption = other.evaluate.toOption) ∧
    [none, some .undefined, some .null, some (.number .nan), some (.number (.infinity false)),
      some (.number (.infinity true)), some (.number (.zero false)), some (.number (.zero true)),
      some (.text "NaN"), some (.text "Infinity"), some (.text "-Infinity"), some (.text "null"),
      some (.text "undefined")].Pairwise fun known other =>
        (knowledge known).render ≠ (knowledge other).render := by
  have determines (known other : Option Primitive) :
      (knowledge known).render = (knowledge other).render ↔ known = other :=
    ⟨fun same => knowledge_inj (String.ofList_injective same), fun same => same ▸ rfl⟩
  refine ⟨determines, fun _ _ node other => determines _ _, ?_⟩
  simp only [ne_eq, determines]
  decide

end Command

end TreeQuery
