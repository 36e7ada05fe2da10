import TreeQuery.Proofs.Trail

/-!
# Names that a node binds

The names are read off the binding skeleton of a node: parameters, declared names, targets of
patterns, and the direct statements of a block. A table says which parts belong to the skeleton, and
the names are those of the identifiers reached through it.
-/

namespace TreeQuery

/-- What is asked of a node. -/
inductive View where
  /-- Which names it binds for the nodes beside it. -/
  | declares
  /-- Which names it hides from the nodes inside it. -/
  | hides
  /-- Which names it binds as the head of a loop, where only a declaration binds. -/
  | head
  /-- Which names it binds as a member of an import. -/
  | specifier
deriving DecidableEq, Repr

namespace Kind

/-- The binding parts of nodes that bind names for the nodes beside them, with what is asked of the
nodes there. -/
def declares : Kind → Field → Option View
  | .functionDeclaration, .id | .functionDeclaration, .params => some .declares
  | .functionExpression, .params | .arrowFunctionExpression, .params => some .declares
  | .classDeclaration, .id => some .declares
  | .program, .body | .blockStatement, .body | .staticBlock, .body => some .declares
  | .variableDeclaration, .declarations | .variableDeclarator, .id => some .declares
  | .objectPattern, .properties | .arrayPattern, .elements => some .declares
  | .property, .value | .restElement, .argument | .assignmentPattern, .left => some .declares
  | .forStatement, .init | .forInStatement, .left | .forOfStatement, .left => some .head
  | .catchClause, .param => some .declares
  | .importDeclaration, .specifiers => some .specifier
  | _, _ => none

/-- The parts of a node in which its binding names are, with what is asked of the nodes there. A
class hides its own name also where it does not declare it. -/
def binds : View → Kind → Field → Option View
  | .declares, kind, field => kind.declares field
  | .hides, .classExpression, .id => some .declares
  | .hides, kind, field => kind.declares field
  | .head, .variableDeclaration, field => declares .variableDeclaration field
  | .head, _, _ => none
  | .specifier, .importSpecifier, .localName => some .declares
  | .specifier, .importDefaultSpecifier, .localName => some .declares
  | .specifier, .importNamespaceSpecifier, .localName => some .declares
  | .specifier, _, _ => none

end Kind

mutual

/-- The names that a node binds, in the order of its parts. -/
def Node.names (view : View) : Node → List String
  | .mk kind parts =>
      (if kind = .identifier ∧ view = .declares then (parts.text? .name).toList else []) ++
        parts.names (kind.binds view)
  | .unsupported => []

/-- The names bound in the parts that a table selects. -/
def Parts.names (table : Field → Option View) {slots : List Slot} : Parts slots → List String
  | .nil => []
  | @Parts.cons field _ _ head tail =>
      (match table field with
        | some view => head.names view
        | none => []) ++ tail.names table

/-- The names bound in a part. -/
def Part.names (view : View) {shape : Shape} : Part shape → List String
  | .node value => value.names view
  | .optNode (some value) => value.names view
  | .nodes values => Node.namesOfList view values
  | .holes values => Node.namesOfHoles view values
  | _ => []

/-- The names that some of several nodes binds. -/
def Node.namesOfList (view : View) : List Node → List String
  | [] => []
  | value :: values => value.names view ++ Node.namesOfList view values

/-- The names that some of several nodes binds, holes aside. -/
def Node.namesOfHoles (view : View) : List (Option Node) → List String
  | [] => []
  | none :: values => Node.namesOfHoles view values
  | some value :: values => value.names view ++ Node.namesOfHoles view values

end

theorem Node.mem_namesOfList {name : String} {view : View} {values : List Node} :
    name ∈ Node.namesOfList view values ↔ ∃ value ∈ values, name ∈ value.names view := by
  induction values with
  | nil => simp [Node.namesOfList]
  | cons value values induction => simp [Node.namesOfList, induction]

theorem Node.mem_namesOfHoles {name : String} {view : View} {values : List (Option Node)} :
    name ∈ Node.namesOfHoles view values ↔
      ∃ value ∈ values.filterMap id, name ∈ value.names view := by
  induction values with
  | nil => simp [Node.namesOfHoles]
  | cons value values induction => cases value <;> simp [Node.namesOfHoles, induction]

theorem Part.mem_names {name : String} {view : View} {shape : Shape} {part : Part shape} :
    name ∈ part.names view ↔ ∃ child ∈ part.held, name ∈ child.names view := by
  cases part with
  | optNode value => cases value <;> simp [Part.names, Part.held]
  | nodes values => simpa [Part.names, Part.held] using Node.mem_namesOfList
  | holes values => simpa only [Part.names, Part.held] using Node.mem_namesOfHoles
  | _ => simp [Part.names, Part.held]

theorem Parts.mem_names {name : String} {table : Field → Option View} {slots : List Slot}
    {parts : Parts slots} :
    name ∈ parts.names table ↔
      ∃ field child view, (field, child) ∈ parts.children ∧ table field = some view ∧
        name ∈ child.names view := by
  induction slots with
  | nil => cases parts; simp [Parts.names, Parts.children]
  | cons slot slots induction =>
      cases parts with
      | @cons field _ _ head tail =>
          simp only [Parts.names, List.mem_append, induction, mem_children_cons]
          constructor
          · rintro (inHead | ⟨found, child, view, later, selected, inChild⟩)
            · cases selected : table field with
              | none => simp [selected] at inHead
              | some view =>
                  simp only [selected, Part.mem_names] at inHead
                  obtain ⟨child, present, inChild⟩ := inHead
                  exact ⟨field, child, view, Or.inl ⟨rfl, present⟩, selected, inChild⟩
            · exact ⟨found, child, view, Or.inr later, selected, inChild⟩
          · rintro ⟨found, child, view, ⟨rfl, present⟩ | later, selected, inChild⟩
            · left
              simp only [selected, Part.mem_names]
              exact ⟨child, present, inChild⟩
            · exact Or.inr ⟨found, child, view, later, selected, inChild⟩

/-- A name is bound by an identifier itself or by a child in a part that the table selects. -/
theorem Node.mem_names_mk {name : String} {view : View} {kind : Kind}
    {parts : Parts kind.layout} :
    name ∈ (Node.mk kind parts).names view ↔
      (kind = .identifier ∧ view = .declares ∧ parts.text? .name = some name) ∨
        ∃ field child view', (field, child) ∈ parts.children ∧
          kind.binds view field = some view' ∧ name ∈ child.names view' := by
  rw [Node.names, List.mem_append, Parts.mem_names]
  by_cases own : kind = .identifier ∧ view = .declares
  · simp [own]
  · simp only [own, if_false, List.not_mem_nil, false_or]
    constructor
    · exact Or.inr
    · rintro (⟨isIdentifier, declares, -⟩ | below)
      · exact absurd ⟨isIdentifier, declares⟩ own
      · exact below

end TreeQuery
