import TreeQuery.Proofs.Scope.Walk

/-!
# What a search does not read

Labels, keys that are not computed, names of members, names of function expressions and other
positions hold nodes that neither refer to variables nor bind names. Two trees that differ only in
such positions, and in what is no node, are alike: a search gives the same answer for both and
reports the same. Of what is no node a search reads the names of identifiers and whether a key is
computed, and of the source of an export whether there is one.
-/

namespace TreeQuery

/-- The slots whose nodes a search never looks at, neither for uses nor for bindings. -/
def unreadSlots : List (Kind × Field) :=
  [(.labeledStatement, .label), (.breakStatement, .label), (.continueStatement, .label),
   (.functionExpression, .id), (.arrowFunctionExpression, .id), (.metaProperty, .metaName),
   (.metaProperty, .property), (.jsxNamespacedName, .nameSpace), (.jsxNamespacedName, .name),
   (.jsxMemberExpression, .property), (.jsxAttribute, .name), (.jsxElement, .closingElement),
   (.importDeclaration, .source), (.importSpecifier, .imported), (.exportSpecifier, .exported),
   (.exportNamedDeclaration, .source), (.exportAllDeclaration, .source),
   (.exportAllDeclaration, .exported)]

namespace Kind

/-- Whether no search looks at the nodes in a part: also keys and member names are not read unless
they are computed. -/
def isUnread (kind : Kind) (computed : Bool) (field : Field) : Bool :=
  decide ((kind, field) ∈ unreadSlots ∨ (kind, field) ∈ keySlots ∧ computed = false)

/-- The children that a search looks at, each with the name of the part that holds it. -/
def readChildren (kind : Kind) (parts : Parts kind.layout) : List (Field × Node) :=
  parts.children.filter fun member => !kind.isUnread (parts.isSet .computed) member.1

end Kind

mutual

/-- Two nodes differ only where no search looks. They are of one kind, agree about their name, about
whether their key is computed and about whether they have a source, and the children that a search
looks at are alike. All other children, and whatever is no node, may differ. -/
inductive Node.Alike : Node → Node → Prop where
  | unsupported : Alike .unsupported .unsupported
  | mk {kind : Kind} {parts others : Parts kind.layout}
      (name : parts.text? .name = others.text? .name)
      (computed : parts.isSet .computed = others.isSet .computed)
      (sourced : parts.isPresent .source = others.isPresent .source)
      (children : AllAlike (kind.readChildren parts) (kind.readChildren others)) :
      Alike (.mk kind parts) (.mk kind others)

/-- Two lists of children are alike child by child, each in the same part. -/
inductive Node.AllAlike : List (Field × Node) → List (Field × Node) → Prop where
  | nil : AllAlike [] []
  | cons {field : Field} {child other : Node} {children others : List (Field × Node)}
      (here : Alike child other) (later : AllAlike children others) :
      AllAlike ((field, child) :: children) ((field, other) :: others)

end

/-! ## Only children that are read contribute -/

namespace Kind

section Unread

variable {kind : Kind} {field : Field}

theorem binds_eq_none_of_isUnread {computed : Bool} (unread : kind.isUnread computed field = true)
    (view : View) : kind.binds view field = none := by
  have table : ∀ slot ∈ unreadSlots ++ keySlots, slot.1.binds view slot.2 = none := by
    cases view <;> decide
  have listed : (kind, field) ∈ unreadSlots ++ keySlots := by
    rcases of_decide_eq_true unread with never | ⟨key, -⟩
    · exact List.mem_append_left _ never
    · exact List.mem_append_right _ key
  exact table _ listed

theorem use?_eq_none_of_isUnread {circumstances : Circumstances}
    (holdsNodes : field ∈ nodeFields kind.layout)
    (unread : kind.isUnread circumstances.computed field = true) (use : Use) :
    (kind.treatment use field).use? circumstances = none := by
  rw [treatment_eq use holdsNodes]
  rcases of_decide_eq_true unread with never | ⟨key, plain⟩
  · have table : ∀ slot ∈ unreadSlots, slot ∈ silentSlots := by decide +kernel
    rw [if_pos (table _ never)]
    rfl
  · have table : ∀ slot ∈ keySlots, slot ∉ silentSlots := by decide +kernel
    have condition : conditionIn (kind, field) = .computed := if_pos key
    have fails : (conditionIn (kind, field)).holds circumstances = false := by
      rw [condition]
      exact plain
    rw [if_neg (table _ key), Treatment.use?, fails]
    rfl

end Unread

end Kind

namespace Node

/-- The names that a node binds come from the node itself and from the children that are read. -/
theorem names_eq_of_read (kind : Kind) (parts : Parts kind.layout) (view : View) :
    (Node.mk kind parts).names view =
      (if kind = .identifier ∧ view = .declares then (parts.text? .name).toList else []) ++
        ((kind.readChildren parts).map (namesThrough (kind.binds view))).flatten := by
  apply names_eq_of_filter
  intro member _ dropped
  have unread := (Bool.not_eq_false' _).mp dropped
  simp [namesThrough, Kind.binds_eq_none_of_isUnread unread]

/-- What a search comes upon is in the node itself and in the children that are read. -/
theorem sightings_eq_of_read (name : String) (use : Use) (kind : Kind)
    (parts : Parts kind.layout) :
    (Node.mk kind parts).sightings name use =
      kind.ownSightings use (parts.text? .name) name ++
        (kind.inSearchOrder ((kind.readChildren parts).map (sightingsThrough name fun field =>
          (kind.treatment use field).use? ((Node.mk kind parts).circumstances name)))).flatten := by
  rw [sightings, Parts.sightings_inSearchOrder, ← Kind.map_inSearchOrder, ← List.flatMap_def,
    Kind.readChildren, ← Kind.filter_inSearchOrder, flatMap_filter_of_eq_nil]
  intro member listed dropped
  have holdsNodes := Parts.field_of_mem_children (Kind.mem_inSearchOrder.mp listed)
  have unread : kind.isUnread ((Node.mk kind parts).circumstances name).computed member.1 = true :=
    (Bool.not_eq_false' _).mp dropped
  simp [sightingsThrough, Kind.use?_eq_none_of_isUnread holdsNodes unread]

/-! ## Alike nodes -/

mutual

theorem Alike.names_eq {node other : Node} :
    node.Alike other → ∀ view, node.names view = other.names view
  | .unsupported, _ => rfl
  | .mk name _ _ children, view => by
      rw [names_eq_of_read, names_eq_of_read, name, children.map_namesThrough_eq]

theorem AllAlike.map_namesThrough_eq {children others : List (Field × Node)} :
    AllAlike children others → ∀ table,
      children.map (namesThrough table) = others.map (namesThrough table)
  | .nil, _ => rfl
  | .cons here later, table => by
      simp only [List.map_cons, namesThrough, here.names_eq]
      rw [← later.map_namesThrough_eq table]

end

theorem Alike.circumstances_eq {node other : Node} (alike : node.Alike other) (name : String) :
    node.circumstances name = other.circumstances name := by
  have hidden : node.hides name = other.hides name := by
    rw [Bool.eq_iff_iff, hides_eq_true, hides_eq_true, alike.names_eq]
  cases alike with
  | unsupported => rfl
  | mk _ computed sourced _ => simp only [circumstances, computed, sourced, hidden]

mutual

/-- A search comes upon the same things in alike nodes, in the same order. -/
theorem Alike.sightings_eq (name : String) {node other : Node} :
    node.Alike other → ∀ use, node.sightings name use = other.sightings name use
  | .unsupported, _ => rfl
  | .mk called computed sourced children, use => by
      have circumstances :=
        (Alike.mk called computed sourced children).circumstances_eq name
      rw [sightings_eq_of_read, sightings_eq_of_read, called, circumstances,
        children.map_sightingsThrough_eq name]

theorem AllAlike.map_sightingsThrough_eq (name : String) {children others : List (Field × Node)} :
    AllAlike children others → ∀ table,
      children.map (sightingsThrough name table) = others.map (sightingsThrough name table)
  | .nil, _ => rfl
  | .cons here later, table => by
      simp only [List.map_cons, sightingsThrough, here.sightings_eq name]
      rw [← later.map_sightingsThrough_eq name table]

end

/-- A search gives the same answer and the same reports for two nodes that differ only where no
search looks. -/
theorem search_eq_of_alike {node other : Node} (alike : node.Alike other) (name : String) :
    node.search name = other.search name := by
  rw [search, search, alike.sightings_eq name .reference]

/-- The label, the name of the member, the directive and a flag differ, an unsupported node stands
in the place of a name, and still both searches report the object of the member expression alone and
find the argument of the call. -/
theorem search_eq_of_alike_statements :
    let foo := make .identifier ("foo", ())
    let node := make .labeledStatement (foo, make .expressionStatement
      (make .callExpression (make .memberExpression (.unsupported, foo, false, false, ()), [foo],
        false, ()), none, ()), ())
    let other := make .labeledStatement (.unsupported, make .expressionStatement
      (make .callExpression (make .memberExpression (.unsupported, .unsupported, false, true, ()),
        [foo], false, ()), some "use strict", ()), ())
    node.search "foo" = other.search "foo" ∧
      other.search "foo" = ⟨true, [.unsupportedNode "foo"]⟩ := by
  intro foo node other
  have name : foo.Alike foo := .mk rfl rfl rfl .nil
  have member : (make .memberExpression (.unsupported, foo, false, false, ())).Alike
      (make .memberExpression (.unsupported, .unsupported, false, true, ())) :=
    .mk rfl rfl rfl (.cons .unsupported .nil)
  have alike : node.Alike other := .mk rfl rfl rfl
    (.cons (.mk rfl rfl rfl (.cons (.mk rfl rfl rfl (.cons member (.cons name .nil))) .nil)) .nil)
  exact ⟨search_eq_of_alike alike "foo", by decide⟩

end Node

end TreeQuery
