import TreeQuery.Proofs.Scope.Walk

/-!
# The binding skeleton

The names that a node binds are read off its binding skeleton: they are the names of the identifiers
at the ends of the trails that go through binder slots alone. What is executed, a body or an
initialiser or a default, and what only labels, such as a key, is no part of the skeleton and may be
replaced at any depth. The head of a loop is part of it exactly where it is a declaration.
-/

namespace TreeQuery

/-! ## Trails through binder slots -/

/-- Every step of a trail goes through a binder slot: one of the list, the head of a loop where a
declaration stands, or the members of an import and then the local name of one of them. -/
inductive OnlyBinders : List Step → Prop where
  | nil : OnlyBinders []
  | slot {last : Step} {earlier : List Step} (binder : last.slot ∈ binderSlots)
      (binders : OnlyBinders earlier) : OnlyBinders (last :: earlier)
  | head {last : Step} {earlier : List Step} (loop : last.slot ∈ headSlots)
      (declaration : last.child.kind? = some .variableDeclaration)
      (binders : OnlyBinders earlier) : OnlyBinders (last :: earlier)
  | specifier {last previous : Step} {earlier : List Step} (specifies : last.kind ∈ specifierKinds)
      (localName : last.field = .localName)
      (listed : previous.slot = (.importDeclaration, .specifiers))
      (binders : OnlyBinders earlier) : OnlyBinders (last :: previous :: earlier)

namespace OnlyBinders

theorem append {upper lower : List Step} (below : OnlyBinders lower) (above : OnlyBinders upper) :
    OnlyBinders (lower ++ upper) := by
  induction below with
  | nil => exact above
  | slot binder _ induction => exact .slot binder induction
  | head loop declaration _ induction => exact .head loop declaration induction
  | specifier specifies localName listed _ induction =>
      exact .specifier specifies localName listed induction

/-- What the end of a trail through binder slots binds, its root binds as well. -/
theorem binds {name : String} {root target : Node} {steps : List Step}
    (binders : OnlyBinders steps) (trail : Trail root steps target) (below : target.Binds name) :
    root.Binds name := by
  induction binders generalizing target with
  | nil =>
      cases trail
      exact below
  | slot binder _ induction =>
      cases trail with
      | down trail member => exact induction trail (.slot binder member below)
  | head loop declaration _ induction =>
      cases trail with
      | down trail member => exact induction trail (.head loop member declaration below)
  | specifier specifies atLocalName listed _ induction =>
      cases trail with
      | down trail localName =>
          cases trail with
          | down trail member =>
              obtain ⟨rfl, rfl⟩ := Prod.mk.inj listed
              subst atLocalName
              exact induction trail (.specifier specifies member localName below)

end OnlyBinders

namespace Node

/-- A chain of binder slots is a trail. -/
theorem Binds.exists_trail {name : String} {node : Node} (binds : node.Binds name) :
    ∃ (steps : List Step) (parts : Parts (Kind.layout .identifier)),
      Trail node steps (.mk .identifier parts) ∧ OnlyBinders steps ∧
        parts.text? .name = some name := by
  induction binds with
  | identifier held => exact ⟨[], _, .here, .nil, held⟩
  | slot binder member _ induction =>
      obtain ⟨steps, parts, trail, binders, held⟩ := induction
      exact ⟨_, parts, trail.child member, binders.append (.slot binder .nil), held⟩
  | head loop member declaration _ induction =>
      obtain ⟨steps, parts, trail, binders, held⟩ := induction
      exact ⟨_, parts, trail.child member, binders.append (.head loop declaration .nil), held⟩
  | specifier specifies member localName _ induction =>
      obtain ⟨steps, parts, trail, binders, held⟩ := induction
      have fromImport := (Trail.here.down member).down localName
      exact ⟨_, parts, fromImport.append trail,
        binders.append (.specifier specifies rfl rfl .nil), held⟩

/-- A name is bound exactly when a trail through binder slots alone ends at an identifier of that
name. -/
theorem mem_names_iff_exists_trail {name : String} {node : Node} :
    name ∈ node.names .declares ↔
      ∃ (steps : List Step) (parts : Parts (Kind.layout .identifier)),
        Trail node steps (.mk .identifier parts) ∧ OnlyBinders steps ∧
          parts.text? .name = some name := by
  rw [← introduces_eq_true, introduces_iff_binds]
  constructor
  · exact Binds.exists_trail
  · rintro ⟨steps, parts, trail, binders, held⟩
    exact binders.binds trail (.identifier held)

end Node

/-! ## Nodes with one skeleton -/

/-- The slots of what is executed, and of the keys and names that bind nothing beside the node. -/
def executableSlots : List (Kind × Field) :=
  [(.variableDeclarator, .init), (.assignmentPattern, .right), (.property, .key),
   (.functionDeclaration, .body), (.functionExpression, .body), (.arrowFunctionExpression, .body),
   (.functionExpression, .id), (.arrowFunctionExpression, .id), (.classDeclaration, .superClass),
   (.classDeclaration, .body), (.classExpression, .superClass), (.classExpression, .body),
   (.forStatement, .test), (.forStatement, .update), (.forStatement, .body),
   (.forInStatement, .right), (.forInStatement, .body), (.forOfStatement, .right),
   (.forOfStatement, .body), (.whileStatement, .test), (.whileStatement, .body),
   (.doWhileStatement, .test), (.doWhileStatement, .body), (.catchClause, .body),
   (.importDeclaration, .source), (.importSpecifier, .imported)]

namespace Kind

/-- Whether a child is left out of the skeleton: it stands in an executable slot, or it is the head
of a loop and no declaration. -/
def isExecutable (kind : Kind) (member : Field × Node) : Bool :=
  decide ((kind, member.1) ∈ executableSlots ∨
    (kind, member.1) ∈ headSlots ∧ member.2.kind? ≠ some .variableDeclaration)

/-- The children that are not executable, each with the name of the part that holds it. -/
def skeletonChildren (kind : Kind) (parts : Parts kind.layout) : List (Field × Node) :=
  parts.children.filter fun member => !kind.isExecutable member

end Kind

mutual

/-- Two nodes differ only in what is executable, at any number of places and at any depth. They are
of one kind and agree about their name, and the children that are not executable have the same
skeleton. All other children, and whatever is no node, may differ. -/
inductive Node.SameSkeleton : Node → Node → Prop where
  | unsupported : SameSkeleton .unsupported .unsupported
  | mk {kind : Kind} {parts others : Parts kind.layout}
      (name : parts.text? .name = others.text? .name)
      (children : AllSameSkeleton (kind.skeletonChildren parts) (kind.skeletonChildren others)) :
      SameSkeleton (.mk kind parts) (.mk kind others)

/-- The children in two lists have the same skeleton one by one, each in the same part. -/
inductive Node.AllSameSkeleton : List (Field × Node) → List (Field × Node) → Prop where
  | nil : AllSameSkeleton [] []
  | cons {field : Field} {child other : Node} {children others : List (Field × Node)}
      (here : SameSkeleton child other) (later : AllSameSkeleton children others) :
      AllSameSkeleton ((field, child) :: children) ((field, other) :: others)

end

namespace Node

theorem AllSameSkeleton.of_forall {children : List (Field × Node)}
    (same : ∀ member ∈ children, member.2.SameSkeleton member.2) :
    AllSameSkeleton children children := by
  induction children with
  | nil => exact .nil
  | cons member children induction =>
      obtain ⟨here, later⟩ := List.forall_mem_cons.mp same
      exact .cons here (induction later)

theorem SameSkeleton.refl (node : Node) : node.SameSkeleton node := by
  induction node using induction_on_children with
  | unsupported => exact .unsupported
  | mk kind parts induction =>
      refine .mk rfl (.of_forall fun member kept => ?_)
      have present : member ∈ parts.children := (List.mem_filter.mp kept).1
      exact induction member.1 member.2 present

/-- What is executable binds nothing beside the node. -/
theorem namesThrough_eq_nil_of_isExecutable {kind : Kind} {member : Field × Node}
    (executable : kind.isExecutable member = true) (view : View) :
    namesThrough (kind.binds view) member = [] := by
  rcases of_decide_eq_true executable with executed | ⟨loop, plain⟩
  · have table : ∀ slot ∈ executableSlots, slot.1.binds view slot.2 = none := by
      cases view <;> decide
    simp [namesThrough, table _ executed]
  · -- A head is asked for names as a head, and then only a declaration answers.
    have table : ∀ slot ∈ headSlots,
        slot.1.binds view slot.2 = none ∨ slot.1.binds view slot.2 = some .head := by
      cases view <;> decide
    rcases table _ loop with unread | asHead
    · simp [namesThrough, unread]
    · simp only [namesThrough, asHead, Option.elim_some, List.eq_nil_iff_forall_not_mem]
      intro name inHead
      exact plain (mem_names_head.mp inHead).1

/-- The names that a node binds come from the node itself and from its skeleton. -/
theorem names_eq_of_skeleton (kind : Kind) (parts : Parts kind.layout) (view : View) :
    (Node.mk kind parts).names view =
      (if kind = .identifier ∧ view = .declares then (parts.text? .name).toList else []) ++
        ((kind.skeletonChildren parts).map (namesThrough (kind.binds view))).flatten := by
  apply names_eq_of_filter
  intro member _ dropped
  exact namesThrough_eq_nil_of_isExecutable ((Bool.not_eq_false' _).mp dropped) view

mutual

theorem SameSkeleton.names_eq {node other : Node} :
    node.SameSkeleton other → ∀ view, node.names view = other.names view
  | .unsupported, _ => rfl
  | .mk name children, view => by
      rw [names_eq_of_skeleton, names_eq_of_skeleton, name, children.map_namesThrough_eq]

theorem AllSameSkeleton.map_namesThrough_eq {children others : List (Field × Node)} :
    AllSameSkeleton children others → ∀ table,
      children.map (namesThrough table) = others.map (namesThrough table)
  | .nil, _ => rfl
  | .cons here later, table => by
      simp only [List.map_cons, namesThrough, here.names_eq]
      rw [← later.map_namesThrough_eq table]

end

/-- A node binds the names of a list: those of the identifiers that are reached through binder slots
alone. The list stays the same, order included, when all that is executable is replaced. -/
theorem names_skeleton (node : Node) :
    (∀ name, node.introduces name = true ↔ name ∈ node.names .declares) ∧
      (∀ name, name ∈ node.names .declares ↔
        ∃ (steps : List Step) (parts : Parts (Kind.layout .identifier)),
          Trail node steps (.mk .identifier parts) ∧ OnlyBinders steps ∧
            parts.text? .name = some name) ∧
      ∀ other, node.SameSkeleton other → other.names .declares = node.names .declares :=
  ⟨fun _ => introduces_eq_true, fun _ => mem_names_iff_exists_trail,
    fun _ same => (same.names_eq .declares).symm⟩

/-- An initialiser, a default, the right sides, the bodies and the bare head of a loop are all
replaced at once by a name that stays unbound. -/
theorem names_skeleton_loops :
    let foo := make .identifier ("foo", ())
    let bar := make .identifier ("bar", ())
    let target (default : Node) := make .assignmentPattern (foo, default, ())
    let declaration (value : Node) := make .variableDeclaration
      ([make .variableDeclarator (target value, some value, ())], .constant, ())
    let loops (value : Node) := make .blockStatement
      ([make .forOfStatement (declaration value, value, value, false, ()),
        make .forInStatement (value, value, value, false, ())], ())
    (loops .unsupported).SameSkeleton (loops bar) ∧
      (loops bar).names .declares = (loops .unsupported).names .declares ∧
        (loops bar).names .declares = ["foo"] := by
  intro foo bar target declaration loops
  have pattern : (target .unsupported).SameSkeleton (target bar) :=
    .mk rfl (.cons (.refl foo) .nil)
  have declared : (declaration .unsupported).SameSkeleton (declaration bar) :=
    .mk rfl (.cons (.mk rfl (.cons pattern .nil)) .nil)
  have same : (loops .unsupported).SameSkeleton (loops bar) :=
    .mk rfl (.cons (.mk rfl (.cons declared .nil)) (.cons (.mk rfl .nil) .nil))
  exact ⟨same, (names_skeleton (loops .unsupported)).2.2 _ same, by decide⟩

end Node

end TreeQuery
