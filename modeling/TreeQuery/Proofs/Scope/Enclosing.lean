import TreeQuery.Proofs.Scope.Reference

/-!
# Names of inner scopes in the enclosing one

A scope is searched as the list of its statements, unless one of them binds the name. A statement
binds the names that it declares in that scope, and also some names of the scopes inside it: those
of parameters, of the statements of a block, and of declarations in the head of a loop.
-/

namespace TreeQuery

/-- The slots that hold the statements of a scope. -/
def bodySlots : List (Kind × Field) :=
  [(.program, .body), (.blockStatement, .body), (.staticBlock, .body)]

/-- The nodes that are no statements and still bind names. -/
def fragmentKinds : List Kind :=
  [.identifier, .functionExpression, .arrowFunctionExpression, .variableDeclarator, .objectPattern,
   .arrayPattern, .property, .restElement, .assignmentPattern, .catchClause]

namespace Node

/-- The statements of a scope. -/
def statements? : Node → Option (List Node)
  | .mk .program parts => some parts.row.1
  | .mk .blockStatement parts => some parts.row.1
  | .mk .staticBlock parts => some parts.row.1
  | _ => none

/-- A statement declares a name in the scope that it stands in. -/
inductive DeclaresHere (name : String) : Node → Prop where
  | declarators {parts : Parts (Kind.layout .variableDeclaration)} {declarator : Node}
      (member : (.declarations, declarator) ∈ parts.children) (target : declarator.Binds name) :
      DeclaresHere name (.mk .variableDeclaration parts)
  | function {parts : Parts (Kind.layout .functionDeclaration)} {id : Node}
      (member : (.id, id) ∈ parts.children) (called : id.Binds name) :
      DeclaresHere name (.mk .functionDeclaration parts)
  | ofClass {parts : Parts (Kind.layout .classDeclaration)} {id : Node}
      (member : (.id, id) ∈ parts.children) (called : id.Binds name) :
      DeclaresHere name (.mk .classDeclaration parts)
  | imports {parts : Parts (Kind.layout .importDeclaration)}
      (imported : (Node.mk .importDeclaration parts).Binds name) :
      DeclaresHere name (.mk .importDeclaration parts)

/-- A statement binds a name that belongs to a scope inside it. -/
inductive Exposes (name : String) : Node → Prop where
  | parameter {parts : Parts (Kind.layout .functionDeclaration)} {parameter : Node}
      (member : (.params, parameter) ∈ parts.children) (binds : parameter.Binds name) :
      Exposes name (.mk .functionDeclaration parts)
  | block {block inner : Node} {body : List Node} (encloses : block.statements? = some body)
      (member : inner ∈ body) (binds : inner.Binds name) : Exposes name block
  | head {kind : Kind} {parts : Parts kind.layout} {field : Field} {declaration : Node}
      (loop : (kind, field) ∈ headSlots) (member : (field, declaration) ∈ parts.children)
      (declares : declaration.kind? = some .variableDeclaration)
      (binds : declaration.Binds name) : Exposes name (.mk kind parts)
  | fragment {kind : Kind} {parts : Parts kind.layout} (noStatement : kind ∈ fragmentKinds)
      (binds : (Node.mk kind parts).Binds name) : Exposes name (.mk kind parts)

/-- A declaration with `var` that binds a name. -/
def DeclaresVar (name : String) (node : Node) : Prop :=
  ∃ declarations, node = make .variableDeclaration (declarations, .functionScoped, ()) ∧
    node.Binds name

/-- A scope is a node whose children are its statements. -/
theorem exists_parts_of_statements {scope : Node} {body : List Node}
    (encloses : scope.statements? = some body) :
    ∃ (kind : Kind) (parts : Parts kind.layout), scope = .mk kind parts ∧
      (kind, .body) ∈ bodySlots ∧ parts.children = body.map (.body, ·) := by
  unfold statements? at encloses
  split at encloses
  case h_4 => cases encloses
  all_goals
    rename_i parts
    obtain rfl := Option.some.inj encloses
    refine ⟨_, parts, rfl, by decide, ?_⟩
    obtain ⟨row, rfl⟩ : ∃ row, parts = .ofRow row := ⟨parts.row, parts.ofRow_row.symm⟩
    rw [Parts.row_ofRow]
    exact List.append_nil _

theorem exists_statements {kind : Kind} (parts : Parts kind.layout)
    (isScope : (kind, .body) ∈ bodySlots) :
    ∃ body, (Node.mk kind parts).statements? = some body := by
  simp only [bodySlots, List.mem_cons, Prod.mk.injEq, and_true, List.not_mem_nil, or_false]
    at isScope
  rcases isScope with rfl | rfl | rfl <;> exact ⟨_, rfl⟩

theorem mem_children_scope_iff {slots : List Slot} {parts : Parts slots} {body : List Node}
    (children : parts.children = body.map (Field.body, ·)) {field : Field} {child : Node} :
    (field, child) ∈ parts.children ↔ field = .body ∧ child ∈ body := by
  rw [children, List.mem_map]
  constructor
  · rintro ⟨statement, present, same⟩
    cases same
    exact ⟨rfl, present⟩
  · rintro ⟨rfl, present⟩
    exact ⟨child, present, rfl⟩

/-- A scope binds what one of its statements binds. -/
theorem binds_scope_iff {name : String} {scope : Node} {body : List Node}
    (encloses : scope.statements? = some body) :
    scope.Binds name ↔ ∃ statement ∈ body, statement.Binds name := by
  obtain ⟨kind, parts, rfl, isScope, children⟩ := exists_parts_of_statements encloses
  constructor
  · intro binds
    cases binds with
    | slot _ member below =>
        exact ⟨_, ((mem_children_scope_iff children).mp member).2, below⟩
    | identifier _ => simp [bodySlots] at isScope
    | head loop member _ _ =>
        obtain ⟨rfl, -⟩ := (mem_children_scope_iff children).mp member
        simp [headSlots] at loop
    | specifier _ _ _ _ => simp [bodySlots] at isScope
  · rintro ⟨statement, present, binds⟩
    have binder : (kind, Field.body) ∈ binderSlots := by
      have table : ∀ slot ∈ bodySlots, slot ∈ binderSlots := by decide
      exact table _ isScope
    exact .slot binder ((mem_children_scope_iff children).mpr ⟨rfl, present⟩) binds

/-- A step into a scope is open unless the scope binds the name. -/
theorem use?_scope_iff {name : String} {use : Use} {kind : Kind} {parts : Parts kind.layout}
    {child : Node} (isScope : (kind, .body) ∈ bodySlots)
    (member : (.body, child) ∈ parts.children) :
    (kind.treatment .reference .body).use? ((Node.mk kind parts).circumstances name) = some use ↔
      ¬ (Node.mk kind parts).Binds name ∧ use = .reference := by
  have table : ∀ slot ∈ bodySlots, slot ∉ silentSlots ∧ slot ∉ keySlots ∧
      slot ≠ (.exportNamedDeclaration, .specifiers) ∧ slot ∈ scopeSlots ∧ slot ∉ classSlots ∧
        roleIn .reference slot = .reference := by decide
  obtain ⟨loud, noKey, noExport, atScope, noClass, role⟩ := table _ isScope
  refine (Step.use?_eq_some_iff ⟨kind, parts, .body, child⟩ member).trans ?_
  simp only [Step.IsSilent, Step.IsShadowed, Step.slot, Step.parent, loud, noKey, noExport, atScope,
    noClass, role, false_and, true_and, or_false, not_false_eq_true, @eq_comm _ use]

theorem uses_scope_iff {name : String} {scope : Node} {body : List Node}
    (encloses : scope.statements? = some body) :
    scope.uses name = true ↔ ¬ scope.Binds name ∧ (searchAll name body).found = true := by
  obtain ⟨kind, parts, rfl, isScope, children⟩ := exists_parts_of_statements encloses
  have noName : ∀ use, ¬ kind.isUse use = true := by
    intro use own
    obtain ⟨rfl | rfl, -⟩ := Kind.isUse_iff.mp own <;> exact absurd isScope (by decide)
  have found : (searchAll name body).found = true ↔
      ∃ statement ∈ body, Sighting.use ∈ statement.sightings name .reference := by
    simp [searchAll, Search.ofSightings, mem_sightingsOfList]
  rw [uses_iff_mem, use_mem_sightings_mk, found]
  constructor
  · rintro (⟨own, -⟩ | ⟨field, child, use, member, searched, seen⟩)
    · exact absurd own (noName _)
    · obtain ⟨rfl, present⟩ := (mem_children_scope_iff children).mp member
      obtain ⟨visible, rfl⟩ := (use?_scope_iff isScope member).mp searched
      exact ⟨visible, child, present, seen⟩
  · rintro ⟨visible, statement, present, seen⟩
    have member := (mem_children_scope_iff children).mpr ⟨rfl, present⟩
    exact Or.inr ⟨.body, statement, .reference, member,
      (use?_scope_iff isScope member).mpr ⟨visible, rfl⟩, seen⟩

/-! ## Declarations of the scope and of the scopes inside it -/

theorem DeclaresHere.binds {name : String} {node : Node} (declares : node.DeclaresHere name) :
    node.Binds name := by
  cases declares with
  | declarators member target => exact .slot (by decide) member target
  | function member called => exact .slot (by decide) member called
  | ofClass member called => exact .slot (by decide) member called
  | imports imported => exact imported

theorem Exposes.binds {name : String} {node : Node} (exposes : node.Exposes name) :
    node.Binds name := by
  cases exposes with
  | parameter member binds => exact .slot (by decide) member binds
  | block encloses member binds => exact (binds_scope_iff encloses).mpr ⟨_, member, binds⟩
  | head loop member declares binds => exact .head loop member declares binds
  | fragment _ binds => exact binds

/-- A statement binds what it declares in its scope and what it exposes of the scopes inside it. -/
theorem binds_iff_declaresHere_or_exposes {name : String} {node : Node} :
    node.Binds name ↔ node.DeclaresHere name ∨ node.Exposes name := by
  constructor
  · intro binds
    cases binds with
    | identifier held => exact Or.inr (.fragment (by decide) (.identifier held))
    | @slot kind parts field child binder member below =>
        by_cases noStatement : kind ∈ fragmentKinds
        · exact Or.inr (.fragment noStatement (.slot binder member below))
        · have statements : ∀ slot ∈ binderSlots, slot.1 ∉ fragmentKinds →
              slot ∈ bodySlots ∨ slot ∈ [(.variableDeclaration, .declarations),
                (.functionDeclaration, .id), (.functionDeclaration, .params),
                (.classDeclaration, .id)] := by decide
          rcases statements _ binder noStatement with inBody | others
          · obtain rfl : field = .body := by
              have table : ∀ slot ∈ bodySlots, slot.2 = .body := by decide
              exact table _ inBody
            obtain ⟨body, encloses⟩ := exists_statements parts inBody
            obtain ⟨_, _, same, -, children⟩ := exists_parts_of_statements encloses
            cases same
            exact Or.inr (.block encloses ((mem_children_scope_iff children).mp member).2 below)
          · simp only [List.mem_cons, Prod.mk.injEq, List.not_mem_nil, or_false] at others
            rcases others with ⟨rfl, rfl⟩ | ⟨rfl, rfl⟩ | ⟨rfl, rfl⟩ | ⟨rfl, rfl⟩
            · exact Or.inl (.declarators member below)
            · exact Or.inl (.function member below)
            · exact Or.inr (.parameter member below)
            · exact Or.inl (.ofClass member below)
    | head loop member declares below => exact Or.inr (.head loop member declares below)
    | specifier specifies member localName below =>
        exact Or.inl (.imports (.specifier specifies member localName below))
  · rintro (declares | exposes)
    · exact declares.binds
    · exact exposes.binds

theorem not_declaresVar {name : String} {kind : Kind} {parts : Parts kind.layout}
    (other : kind ≠ .variableDeclaration) : ¬ (Node.mk kind parts).DeclaresVar name := by
  rintro ⟨_, same, -⟩
  exact other (Option.some.inj (congrArg kind? same))

/-- A parameter of a function that a block declares hides the uses of its name elsewhere in the
block, although the block itself declares no such name. -/
theorem parameter_hides_uses_beside :
    ¬ ∀ (name : String) (scope : Node) (body : List Node), scope.statements? = some body →
      (∀ statement ∈ body, ¬ statement.DeclaresHere name) →
        (scope.Throughout fun inner => ¬ inner.DeclaresVar name) →
          scope.uses name = (searchAll name body).found := by
  intro usesOfStatements
  let use := make .identifier ("foo", ())
  let function := make .functionDeclaration (some (make .identifier ("f", ())), [use],
    make .blockStatement ([], ()), false, false, false, ())
  let statement := make .expressionStatement (use, none, ())
  let scope := make .blockStatement ([function, statement], ())
  have noDeclaration : ∀ inner ∈ [function, statement], ¬ inner.DeclaresHere "foo" := by
    rintro _ (_ | ⟨_, _ | ⟨_, ⟨⟩⟩⟩) declares
    · change DeclaresHere "foo" (.mk .functionDeclaration _) at declares
      cases declares with
      | function member called =>
          rcases member with _ | ⟨_, _ | ⟨_, _ | ⟨_, ⟨⟩⟩⟩⟩
          exact absurd (introduces_iff_binds.mpr called) (by decide)
    · change DeclaresHere "foo" (.mk .expressionStatement _) at declares
      cases declares
  have noVar : scope.Throughout fun inner => ¬ inner.DeclaresVar "foo" := by
    refine .mk (not_declaresVar (by decide)) ?_
    rintro _ (_ | ⟨_, _ | ⟨_, ⟨⟩⟩⟩)
    · refine .mk (not_declaresVar (by decide)) ?_
      rintro _ (_ | ⟨_, _ | ⟨_, _ | ⟨_, ⟨⟩⟩⟩⟩)
      · exact .mk (not_declaresVar (by decide)) nofun
      · exact .mk (not_declaresVar (by decide)) nofun
      · exact .mk (not_declaresVar (by decide)) nofun
    · refine .mk (not_declaresVar (by decide)) ?_
      rintro _ (_ | ⟨_, ⟨⟩⟩)
      exact .mk (not_declaresVar (by decide)) nofun
  have same := usesOfStatements "foo" scope [function, statement] rfl noDeclaration noVar
  exact absurd same (by decide)

/-- A scope is searched as the list of its statements unless one of them declares the name there or
exposes it from a scope inside it; then nothing is found. -/
theorem uses_scope_eq (name : String) (scope : Node) (body : List Node)
    (encloses : scope.statements? = some body) :
    ((∀ statement ∈ body, ¬ statement.DeclaresHere name) →
      (∀ statement ∈ body, ¬ statement.Exposes name) →
        scope.uses name = (searchAll name body).found) ∧
      ((∃ statement ∈ body, statement.DeclaresHere name ∨ statement.Exposes name) →
        scope.uses name = false) := by
  have binds : scope.Binds name ↔
      ∃ statement ∈ body, statement.DeclaresHere name ∨ statement.Exposes name := by
    simp only [binds_scope_iff encloses, binds_iff_declaresHere_or_exposes]
  constructor
  · intro noDeclaration noExposure
    have visible : ¬ scope.Binds name := by
      rw [binds]
      rintro ⟨statement, present, declares | exposes⟩
      · exact noDeclaration statement present declares
      · exact noExposure statement present exposes
    rw [Bool.eq_iff_iff, uses_scope_iff encloses]
    exact and_iff_right visible
  · intro bound
    rw [Bool.eq_false_iff, ne_eq, uses_scope_iff encloses]
    rintro ⟨visible, -⟩
    exact visible (binds.mpr bound)

/-- A parameter leaves the uses around its function alone when the function stands inside an
expression, and hides them when the function is itself a statement. -/
theorem uses_block_beside_functions :
    let use := make .identifier ("foo", ())
    let function := make .functionExpression (none, [use], make .blockStatement ([], ()), false,
      false, false, ())
    let declaration := make .functionDeclaration (none, [use], make .blockStatement ([], ()), false,
      false, false, ())
    let body := [make .expressionStatement (function, none, ()),
      make .expressionStatement (use, none, ())]
    (make .blockStatement (body, ())).uses "foo" = (searchAll "foo" body).found ∧
      (make .blockStatement (body, ())).uses "foo" = true ∧
        (make .blockStatement (declaration :: body, ())).uses "foo" = false := by
  intro use function declaration body
  have noBinder : ∀ statement ∈ body, ¬ statement.Binds "foo" := by
    have noneIntroduces : ∀ statement ∈ body, statement.introduces "foo" = false :=
      List.forall_mem_cons.mpr ⟨by decide, List.forall_mem_singleton.mpr (by decide)⟩
    intro statement present binds
    rw [← introduces_iff_binds, noneIntroduces statement present] at binds
    cases binds
  have noDeclaration : ∀ statement ∈ body, ¬ statement.DeclaresHere "foo" :=
    fun statement present declares => noBinder statement present declares.binds
  have noExposure : ∀ statement ∈ body, ¬ statement.Exposes "foo" :=
    fun statement present exposes => noBinder statement present exposes.binds
  have exposed : declaration.Exposes "foo" := .parameter (.head _) (.identifier rfl)
  refine ⟨?_, by decide, ?_⟩
  · exact (uses_scope_eq "foo" (make .blockStatement (body, ())) body rfl).1 noDeclaration
      noExposure
  · exact (uses_scope_eq "foo" (make .blockStatement (declaration :: body, ())) _ rfl).2
      ⟨declaration, List.mem_cons_self, Or.inr exposed⟩

end Node

end TreeQuery
