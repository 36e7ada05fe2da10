import TreeQuery.Proofs.Load.Depth
import TreeQuery.Proofs.Node.Equality

/-!
# The literals of a loaded tree

A value that is loaded holds no number that is not finite, so neither does a literal of the tree;
and a scalar becomes a literal value of its own sort, so only lists and objects are kept as they
are. Hence equality of nodes is an equivalence on the trees that are loaded.
-/

namespace TreeQuery

namespace Node

/-- A bracket puts a node around sound literal values. -/
theorem builds_hasSoundLiterals :
    Builds (Throughout HasSoundLiterals) (Throughout HasSoundLiterals) LiteralValue.IsSound where
  null := .null
  unsupported := .unsupported trivial
  node all :=
    have ⟨children, literals⟩ := Parts.all_carries_iff.mp all
    .mk literals children
  weaken sound := sound

end Node

namespace Json

theorem IsBounded.ensures {value : Json} (bounded : value.IsBounded) :
    value.reading.Ensures
      (Part.Carries (Node.Throughout Node.HasSoundLiterals) LiteralValue.IsSound) := by
  induction value using induction_on_values with
  | null => exact Reading.ensures_null .null
  | bool value => exact Reading.ensures_bool (.bool value)
  | number value =>
      exact Reading.ensures_number (.number (Number.isFinite_toDouble bounded.of_number))
  | string value => exact Reading.ensures_string (.text value)
  | array items induction =>
      apply Reading.ensures_array Node.builds_hasSoundLiterals
      · rw [Json.canonical]
        exact .array bounded.canonical.of_item
      · rw [itemReadings_eq_map]
        exact List.forall_mem_map.mpr fun item present =>
          induction item present (bounded.of_item item present)
  | object members induction =>
      apply Reading.ensures_object Node.builds_hasSoundLiterals
      · rw [Json.canonical]
        exact .object bounded.canonical.of_member
      · rw [memberReadings_eq_map]
        exact List.forall_mem_map.mpr fun member present =>
          induction member present (bounded.of_member member present)

theorem IsBounded.throughout_of_toNode {value : Json} {node : Node} (bounded : value.IsBounded)
    (written : value.toNode = .ok node) : node.Throughout Node.HasSoundLiterals := by
  rw [toNode] at written
  split at written
  · cases written
  · obtain ⟨⟨node⟩, read, rfl⟩ := bind_pure_eq_ok_iff.mp written
    exact (bounded.ensures .node _ read).nodes node List.mem_cons_self

end Json

/-! ## The routes to a loaded tree -/

theorem Load.exists_bounded_of_ofText {text : List Char} {node : Node}
    (loaded : Load.ofText text = .ok node) :
    ∃ value : Json, value.IsBounded ∧ value.toNode = .ok node := by
  obtain ⟨value, parsed, written⟩ :=
    Document.read_eq_ok_iff.mp (mapError_eq_ok_iff.mp loaded)
  exact ⟨value, Json.isBounded_of_parse parsed, written⟩

theorem Load.exists_bounded_of_ofBytes {bytes : List UInt8} {node : Node}
    (loaded : Load.ofBytes bytes = .ok node) :
    ∃ value : Json, value.IsBounded ∧ value.toNode = .ok node := by
  obtain ⟨text, -, loaded⟩ := bind_eq_ok_iff.mp loaded
  exact exists_bounded_of_ofText loaded

theorem Command.exists_bounded_of_loadSelected {pointer : String} {bytes : List UInt8}
    {node : Node} (loaded : Command.loadSelected pointer bytes = .ok node) :
    ∃ value : Json, value.IsBounded ∧ value.toNode = .ok node := by
  obtain ⟨text, whole, inner, tokens, parsed, found, written⟩ :=
    exists_value_of_loadSelected loaded
  have bounded := (Json.isBounded_of_parse parsed).canonical.resolve? found
  exact ⟨inner.canonical, bounded.canonical, written⟩

/-- A node is loaded, or taken from a value, which holds whole numbers of sixty-four bits and finite
doubles. -/
def Node.IsObtained (node : Node) : Prop :=
  node.IsLoaded ∨ ∃ value : Json, value.IsBounded ∧ Load.ofJson value = .ok node

namespace Node

theorem IsObtained.exists_bounded {node : Node} (obtained : node.IsObtained) :
    ∃ value : Json, value.IsBounded ∧ value.toNode = .ok node := by
  rcases obtained with (⟨text, loaded⟩ | ⟨bytes, loaded⟩ | ⟨delivery, loaded⟩ |
    ⟨pointer, delivery, loaded⟩) | ⟨value, bounded, loaded⟩
  · exact Load.exists_bounded_of_ofText loaded
  · exact Load.exists_bounded_of_ofBytes loaded
  · obtain ⟨bytes, -, loaded⟩ := bind_eq_ok_iff.mp loaded
    exact Load.exists_bounded_of_ofBytes loaded
  · obtain ⟨bytes, -, loaded⟩ := bind_eq_ok_iff.mp loaded
    cases pointer with
    | none => exact Load.exists_bounded_of_ofBytes (mapError_eq_ok_iff.mp loaded)
    | some pointer => exact Command.exists_bounded_of_loadSelected loaded
  · exact ⟨value.canonical, bounded.canonical, mapError_eq_ok_iff.mp loaded⟩

theorem IsObtained.throughout {node : Node} (obtained : node.IsObtained) :
    node.Throughout HasSoundLiterals := by
  obtain ⟨value, bounded, written⟩ := obtained.exists_bounded
  exact bounded.throughout_of_toNode written

/-- Literals that are written alike are the same when their values are. -/
theorem same_literal (value other : LiteralValue) (raw : Option String) (regex : Option Regex)
    (bigint : Option String) :
    (make .literal (value, raw, regex, bigint, ())).same
      (make .literal (other, raw, regex, bigint, ())) = value.same other := by
  let written : Parts [⟨.raw, .optText⟩, ⟨.regex, .regex⟩, ⟨.bigint, .optText⟩] :=
    .cons (.optText raw) (.cons (.regex regex) (.cons (.optText bigint) .nil))
  have parts : (@Parts.cons .value .literal _ (.literal value) written).same
      (.cons (.literal other) written) = value.same other := by
    simp [written, Parts.same, Part.same]
  change (mk .literal (.cons (.literal value) written)).same
    (mk .literal (.cons (.literal other) written)) = _
  exact (same_mk _ _).trans parts

end Node

/-- Every literal in an obtained node holds `null`, a truth value, a finite number, a text, a list
or an object. So equality is an equivalence on obtained nodes, though it compares numbers as the
machine does. -/
theorem Load.same_equivalence :
    (∀ node : Node, node.IsObtained → ∀ steps value raw regex bigint,
      Trail node steps (.make .literal (value, raw, regex, bigint, ())) → value.IsSound) ∧
    (Equivalence fun node other : { node : Node // node.IsObtained } =>
      node.1.same other.1 = true) ∧
    ∀ x y raw regex bigint,
      (Node.make .literal (.number x, raw, regex, bigint, ())).same
        (.make .literal (.number y, raw, regex, bigint, ())) = x.same y := by
  refine ⟨fun node obtained steps value raw regex bigint trail => ?_, ?_, fun x y => ?_⟩
  · have sound := obtained.throughout steps _ trail
    exact sound.1 value rfl
  · exact Interchangeable.equivalence fun node obtained =>
      Node.interchangeable obtained.throughout
  · exact Node.same_literal (.number x) (.number y)

/-- A regular expression that stands in a list is written as an empty object. Of the two zeros, each
is the same as the other. -/
theorem Load.same_equivalence_zeros :
    let literal (value : LiteralValue) := Node.make .literal (value, none, none, none, ())
    let list := Node.make .arrayExpression ([some (literal (.composite (.object [])))], ())
    let plus := literal (.number (.zero false))
    let minus := literal (.number (.zero true))
    list.IsObtained ∧ (LiteralValue.composite (.object [])).IsSound ∧ plus.IsObtained ∧
      minus.IsObtained ∧ plus ≠ minus ∧ minus.same plus = true := by
  intro literal list plus minus
  let written (value : Json) : Json := .object [("type", .string "Literal"), ("value", value)]
  have bounded {value : Json} (inner : value.IsBounded) : (written value).IsBounded :=
    .object (List.forall_mem_cons.mpr ⟨.string _, List.forall_mem_singleton.mpr inner⟩)
  have inList : list.IsObtained := by
    have items : (Json.array [written (.object [])]).IsBounded :=
      .array (List.forall_mem_singleton.mpr (bounded (.object (List.forall_mem_nil _))))
    exact .inr ⟨.object [("type", .string "ArrayExpression"), ("elements", _)],
      .object (List.forall_mem_cons.mpr ⟨.string _, List.forall_mem_singleton.mpr items⟩), rfl⟩
  have obtained (negative : Bool) : (literal (.number (.zero negative))).IsObtained :=
    .inr ⟨written (.number (.double (.zero negative))), bounded (.number rfl), rfl⟩
  have trail : Trail list
      [⟨.arrayExpression, .ofRow ([some (literal (.composite (.object [])))], ()), .elements, _⟩]
      (literal (.composite (.object []))) :=
    Trail.here.down List.mem_cons_self
  have zeros : plus.same minus = true :=
    same_equivalence.2.2 (.zero false) (.zero true) none none none
  refine ⟨inList, same_equivalence.1 list inList _ _ none none none trail, obtained false,
    obtained true, fun equal => ?_, ?_⟩
  · injection equal with _ parts
    cases congrArg Parts.row parts
  · exact same_equivalence.2.1.symm (x := ⟨plus, obtained false⟩) (y := ⟨minus, obtained true⟩)
      zeros

end TreeQuery
