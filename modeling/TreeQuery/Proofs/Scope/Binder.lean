import TreeQuery.Proofs.Scope.Names
import TreeQuery.Scope.Binding

/-!
# What binds a name

A node binds a name exactly when a chain of binder slots leads from it down to a plain identifier of
that name. The head of a loop binds only when it is a declaration, and a declaration of imports
binds the local names of its specifiers. The names that a node binds are listed alike.
-/

namespace TreeQuery

/-! ## Binder slots -/

/-- The slots through which a node binds names for the nodes beside it: parameters, declared names,
declarator targets, members of patterns, and the direct statements of a block. -/
def binderSlots : List (Kind × Field) :=
  [(.functionDeclaration, .id), (.functionDeclaration, .params), (.functionExpression, .params),
   (.arrowFunctionExpression, .params), (.classDeclaration, .id), (.program, .body),
   (.blockStatement, .body), (.staticBlock, .body), (.variableDeclaration, .declarations),
   (.variableDeclarator, .id), (.objectPattern, .properties), (.arrayPattern, .elements),
   (.property, .value), (.restElement, .argument), (.assignmentPattern, .left),
   (.catchClause, .param)]

/-- The heads of loops, which bind names when a declaration stands there. -/
def headSlots : List (Kind × Field) :=
  [(.forStatement, .init), (.forInStatement, .left), (.forOfStatement, .left)]

/-- The members of an import that bind a local name. -/
def specifierKinds : List Kind :=
  [.importSpecifier, .importDefaultSpecifier, .importNamespaceSpecifier]

/-- A node binds a name for the nodes beside it: as an identifier, through a binder slot, through a
declaration in the head of a loop, or through the local name of an imported member. -/
inductive Node.Binds (name : String) : Node → Prop where
  | identifier {parts : Parts (Kind.layout .identifier)} (held : parts.text? .name = some name) :
      Binds name (.mk .identifier parts)
  | slot {kind : Kind} {parts : Parts kind.layout} {field : Field} {child : Node}
      (binder : (kind, field) ∈ binderSlots) (member : (field, child) ∈ parts.children)
      (below : Binds name child) : Binds name (.mk kind parts)
  | head {kind : Kind} {parts : Parts kind.layout} {field : Field} {child : Node}
      (loop : (kind, field) ∈ headSlots) (member : (field, child) ∈ parts.children)
      (declaration : child.kind? = some .variableDeclaration) (below : Binds name child) :
      Binds name (.mk kind parts)
  | specifier {parts : Parts (Kind.layout .importDeclaration)} {kind : Kind}
      {inner : Parts kind.layout} {child : Node} (specifies : kind ∈ specifierKinds)
      (member : (.specifiers, .mk kind inner) ∈ parts.children)
      (localName : (.localName, child) ∈ inner.children) (below : Binds name child) :
      Binds name (.mk .importDeclaration parts)

namespace Kind

/-- The table of binding parts gives a binder slot its view, and no other slot one. -/
theorem declares_eq {kind : Kind} {field : Field} (holdsNodes : field ∈ nodeFields kind.layout) :
    kind.declares field =
      if (kind, field) ∈ binderSlots then some .declares
      else if (kind, field) ∈ headSlots then some .head
      else if (kind, field) = (.importDeclaration, .specifiers) then some .specifier
      else none := by
  have table : ∀ kind ∈ all, ∀ field ∈ nodeFields kind.layout,
      kind.declares field =
        if (kind, field) ∈ binderSlots then some .declares
        else if (kind, field) ∈ headSlots then some .head
        else if (kind, field) = (.importDeclaration, .specifiers) then some .specifier
        else none := by
    decide +kernel
  exact table kind (mem_all kind) field holdsNodes

theorem binds_head_eq {kind : Kind} (field : Field) :
    kind.binds .head field =
      if kind = .variableDeclaration then kind.binds .declares field else none := by
  cases kind <;> rfl

theorem binds_specifier_eq {kind : Kind} {field : Field}
    (holdsNodes : field ∈ nodeFields kind.layout) :
    kind.binds .specifier field =
      if kind ∈ specifierKinds ∧ field = .localName then some .declares else none := by
  have table : ∀ kind ∈ all, ∀ field ∈ nodeFields kind.layout,
      kind.binds .specifier field =
        if kind ∈ specifierKinds ∧ field = .localName then some .declares else none := by
    decide +kernel
  exact table kind (mem_all kind) field holdsNodes

end Kind

namespace Node

/-- The head of a loop binds names only when it is a declaration. -/
theorem mem_names_head {name : String} {node : Node} :
    name ∈ node.names .head ↔
      node.kind? = some .variableDeclaration ∧ name ∈ node.names .declares := by
  cases node with
  | unsupported => simp [names]
  | mk kind parts =>
      by_cases declaration : kind = .variableDeclaration
      · subst declaration
        simp only [kind?, true_and, mem_names_mk, Kind.binds_head_eq, if_true]
        simp
      · simp [mem_names_mk, Kind.binds_head_eq, declaration, kind?]

/-- A member of an import binds names only as the local name of a specifier. -/
theorem mem_names_specifier {name : String} {node : Node} :
    name ∈ node.names .specifier ↔
      ∃ (kind : Kind) (inner : Parts kind.layout) (child : Node), node = .mk kind inner ∧
        kind ∈ specifierKinds ∧ (.localName, child) ∈ inner.children ∧
          name ∈ child.names .declares := by
  cases node with
  | unsupported => simp [names]
  | mk kind parts =>
      rw [mem_names_mk]
      constructor
      · rintro (⟨-, noDeclares, -⟩ | ⟨field, child, view, member, selected, inChild⟩)
        · cases noDeclares
        · rw [Kind.binds_specifier_eq (Parts.field_of_mem_children member)] at selected
          split at selected
          · rename_i specifies
            obtain ⟨specifies, rfl⟩ := specifies
            obtain rfl := Option.some.inj selected
            exact ⟨kind, parts, child, rfl, specifies, member, inChild⟩
          · cases selected
      · rintro ⟨_, _, child, same, specifies, member, inChild⟩
        cases same
        right
        refine ⟨.localName, child, .declares, member, ?_, inChild⟩
        rw [Kind.binds_specifier_eq (Parts.field_of_mem_children member), if_pos ⟨specifies, rfl⟩]

theorem Binds.mem_names {name : String} {node : Node} (binds : node.Binds name) :
    name ∈ node.names .declares := by
  induction binds with
  | identifier held => exact mem_names_mk.mpr (Or.inl ⟨rfl, rfl, held⟩)
  | slot binder member _ induction =>
      refine mem_names_mk.mpr (Or.inr ⟨_, _, .declares, member, ?_, induction⟩)
      rw [Kind.binds, Kind.declares_eq (Parts.field_of_mem_children member), if_pos binder]
  | @head kind parts field child loop member declaration _ induction =>
      refine mem_names_mk.mpr (Or.inr ⟨_, _, .head, member, ?_,
        mem_names_head.mpr ⟨declaration, induction⟩⟩)
      have noBinder : (kind, field) ∉ binderSlots := by
        have apart : ∀ slot ∈ headSlots, slot ∉ binderSlots := by decide
        exact apart _ loop
      rw [Kind.binds, Kind.declares_eq (Parts.field_of_mem_children member), if_neg noBinder,
        if_pos loop]
  | specifier specifies member localName _ induction =>
      exact mem_names_mk.mpr (Or.inr ⟨.specifiers, _, .specifier, member, rfl,
        mem_names_specifier.mpr ⟨_, _, _, rfl, specifies, localName, induction⟩⟩)

/-- The second part carries the induction past a specifier: its local name is a grandchild of the
declaration that lists it. -/
private theorem binds_of_mem_names {name : String} (node : Node) :
    (name ∈ node.names .declares → node.Binds name) ∧
      (name ∈ node.names .specifier →
        ∃ (kind : Kind) (inner : Parts kind.layout) (child : Node), node = .mk kind inner ∧
          kind ∈ specifierKinds ∧ (.localName, child) ∈ inner.children ∧ child.Binds name) := by
  induction node using induction_on_children with
  | unsupported => simp [names]
  | mk kind parts induction =>
      constructor
      · rw [mem_names_mk]
        rintro (⟨rfl, -, held⟩ | ⟨field, child, view, member, selected, inChild⟩)
        · exact .identifier held
        · rw [Kind.binds, Kind.declares_eq (Parts.field_of_mem_children member)] at selected
          split at selected
          · rename_i binder
            obtain rfl := Option.some.inj selected
            exact .slot binder member ((induction field child member).1 inChild)
          · split at selected
            · rename_i loop
              obtain rfl := Option.some.inj selected
              obtain ⟨declaration, inChild⟩ := mem_names_head.mp inChild
              exact .head loop member declaration ((induction field child member).1 inChild)
            · split at selected
              · rename_i atSpecifiers
                obtain ⟨rfl, rfl⟩ := Prod.mk.inj atSpecifiers
                obtain rfl := Option.some.inj selected
                obtain ⟨_, _, _, rfl, specifies, localName, below⟩ :=
                  (induction _ child member).2 inChild
                exact .specifier specifies member localName below
              · cases selected
      · rw [mem_names_specifier]
        rintro ⟨_, _, child, same, specifies, member, inChild⟩
        cases same
        exact ⟨_, _, child, rfl, specifies, member, (induction _ child member).1 inChild⟩

/-- The names that a node binds are those to which a chain of binder slots leads. -/
theorem mem_names_iff_binds {name : String} {node : Node} :
    name ∈ node.names .declares ↔ node.Binds name :=
  ⟨(binds_of_mem_names node).1, Binds.mem_names⟩

end Node

/-! ## The binding test -/

namespace Node

variable {name : String}

theorem anyIntroduces_iff {values : List Node} :
    anyIntroduces name values = true ↔ ∃ value ∈ values, value.introduces name = true := by
  induction values with
  | nil => simp [anyIntroduces]
  | cons value values induction => simp [anyIntroduces, induction]

theorem anyPresentIntroduces_iff {values : List (Option Node)} :
    anyPresentIntroduces name values = true ↔
      ∃ value ∈ values.filterMap id, value.introduces name = true := by
  induction values with
  | nil => simp [anyPresentIntroduces]
  | cons value values induction => cases value <;> simp [anyPresentIntroduces, induction]

theorem anyIntroducesLocal_iff {values : List Node} :
    anyIntroducesLocal name values = true ↔
      ∃ value ∈ values, value.introducesLocal name = true := by
  induction values with
  | nil => simp [anyIntroducesLocal]
  | cons value values induction => simp [anyIntroducesLocal, induction]

end Node

theorem Part.introduces_iff {name : String} {shape : Shape} {part : Part shape} :
    part.introduces name = true ↔ ∃ child ∈ part.held, child.introduces name = true := by
  cases part with
  | optNode value => cases value <;> simp [introduces, held]
  | nodes values => simpa only [introduces, held] using Node.anyIntroduces_iff
  | holes values => simpa only [introduces, held] using Node.anyPresentIntroduces_iff
  | _ => simp [introduces, held]

theorem Part.introducesLocal_iff {name : String} {shape : Shape} {part : Part shape}
    (several : shape = .nodes ∨ part.held = []) :
    part.introducesLocal name = true ↔ ∃ child ∈ part.held, child.introducesLocal name = true := by
  cases part with
  | nodes values => simpa only [introducesLocal, held] using Node.anyIntroducesLocal_iff
  | _ => simp [introducesLocal, several.resolve_left (by simp)]

/-- A part has a kind only as that of the one node that it holds. -/
theorem Part.kind?_eq_of_mem_held {shape : Shape} {part : Part shape} {child : Node}
    (single : shape = .node ∨ shape = .optNode) (present : child ∈ part.held) :
    part.kind? = child.kind? := by
  cases part with
  | node value =>
      obtain rfl := List.mem_singleton.mp present
      rfl
  | optNode value =>
      obtain rfl := Option.mem_toList.mp present
      rfl
  | _ => simp at single

/-- What the accessors by name read is one part, which holds the children under that name. -/
theorem Parts.exists_part {slots : List Slot} (distinct : (slots.map Slot.field).Nodup)
    (wanted : Field) (parts : Parts slots) :
    ∃ (shape : Shape) (part : Part shape),
      (∀ child, (wanted, child) ∈ parts.children ↔ child ∈ part.held) ∧
        (⟨wanted, shape⟩ ∈ slots ∨ part.held = []) ∧ parts.kindAt? wanted = part.kind? ∧
          ∀ name, parts.introducesAt name wanted = part.introduces name ∧
            parts.introducesLocalAt name wanted = part.introducesLocal name := by
  induction slots with
  | nil =>
      cases parts
      refine ⟨.flag, .flag false, fun child => ?_, Or.inr rfl, rfl, fun name => ⟨?_, ?_⟩⟩
      · simp [children, Part.held]
      · simp [introducesAt, Part.introduces]
      · simp [introducesLocalAt, Part.introducesLocal]
  | cons first slots induction =>
      rw [List.map_cons, List.nodup_cons] at distinct
      obtain ⟨fresh, distinct⟩ := distinct
      cases parts with
      | @cons field shape _ head tail =>
          by_cases here : wanted = field
          · subst here
            have absent : ∀ child, (wanted, child) ∉ tail.children := fun child member =>
              fresh ((List.filter_sublist.map Slot.field).subset (field_of_mem_children member))
            refine ⟨shape, head, fun child => ?_, Or.inl List.mem_cons_self, ?_⟩
            · simp [mem_children_cons, absent]
            · simp [kindAt?, introducesAt, introducesLocalAt]
          · obtain ⟨shape, part, holds, listed, same⟩ := induction distinct tail
            refine ⟨shape, part, fun child => ?_, listed.imp_left (List.mem_cons_of_mem _), ?_⟩
            · simp [mem_children_cons, here, holds]
            · simpa [kindAt?, introducesAt, introducesLocalAt, Ne.symm here] using same

theorem Kind.nodup_fields (kind : Kind) : (kind.layout.map Slot.field).Nodup := by
  have table : ∀ kind ∈ all, (kind.layout.map Slot.field).Nodup := by decide +kernel
  exact table kind (mem_all kind)

section

variable {name : String} {kind : Kind} {parts : Parts kind.layout} {field : Field}

theorem Parts.introducesAt_iff :
    parts.introducesAt name field = true ↔
      ∃ child, (field, child) ∈ parts.children ∧ child.introduces name = true := by
  obtain ⟨shape, part, holds, -, -, same⟩ := parts.exists_part kind.nodup_fields field
  simp only [(same name).1, Part.introduces_iff, holds]

/-- The head of a loop is one node. -/
theorem Parts.introducesAt_head_iff (loop : (kind, field) ∈ headSlots) :
    parts.kindAt? field = some .variableDeclaration ∧ parts.introducesAt name field = true ↔
      ∃ child, (field, child) ∈ parts.children ∧ child.kind? = some .variableDeclaration ∧
        child.introduces name = true := by
  have single : ∀ head ∈ headSlots, ∀ slot ∈ head.1.layout, slot.field = head.2 →
      slot.shape = .node ∨ slot.shape = .optNode := by
    decide
  obtain ⟨shape, part, holds, listed, sameKind, same⟩ := parts.exists_part kind.nodup_fields field
  simp only [sameKind, (same name).1, Part.introduces_iff, holds]
  have kinds : ∀ child ∈ part.held, part.kind? = child.kind? := by
    intro child present
    rcases listed with listed | empty
    · exact Part.kind?_eq_of_mem_held (single _ loop _ listed rfl) present
    · rw [empty] at present
      cases present
  constructor
  · rintro ⟨declaration, child, present, binds⟩
    exact ⟨child, present, kinds child present ▸ declaration, binds⟩
  · rintro ⟨child, present, declaration, binds⟩
    exact ⟨(kinds child present).trans declaration, child, present, binds⟩

theorem Parts.introducesLocalAt_iff {parts : Parts (Kind.layout .importDeclaration)} :
    parts.introducesLocalAt name .specifiers = true ↔
      ∃ child, (.specifiers, child) ∈ parts.children ∧ child.introducesLocal name = true := by
  have several : ∀ slot ∈ Kind.layout .importDeclaration, slot.field = .specifiers →
      slot.shape = .nodes := by
    decide
  obtain ⟨shape, part, holds, listed, -, same⟩ :=
    parts.exists_part (Kind.nodup_fields .importDeclaration) .specifiers
  have listed : shape = .nodes ∨ part.held = [] := listed.imp_left fun here => several _ here rfl
  simp only [(same name).2, Part.introducesLocal_iff listed, holds]

/-- The arms of the binding test are the binder slots, the heads of loops and the imports. -/
theorem Node.introduces_mk_iff :
    (Node.mk kind parts).introduces name = true ↔
      kind = .identifier ∧ parts.text? .name = some name ∨
        (∃ field, (kind, field) ∈ binderSlots ∧ parts.introducesAt name field = true) ∨
        (∃ field, (kind, field) ∈ headSlots ∧
          parts.kindAt? field = some .variableDeclaration ∧ parts.introducesAt name field = true) ∨
        kind = .importDeclaration ∧ parts.introducesLocalAt name .specifiers = true := by
  cases kind <;> simp [introduces, binderSlots, headSlots]

theorem Node.introducesLocal_mk_iff :
    (Node.mk kind parts).introducesLocal name = true ↔
      kind ∈ specifierKinds ∧ parts.introducesAt name .localName = true := by
  cases kind <;> simp [introducesLocal, specifierKinds]

end

namespace Node

variable {name : String}

theorem Binds.introduces {node : Node} (binds : node.Binds name) : node.introduces name = true := by
  induction binds with
  | identifier held => exact introduces_mk_iff.mpr (.inl ⟨rfl, held⟩)
  | slot binder member _ induction =>
      exact introduces_mk_iff.mpr
        (.inr (.inl ⟨_, binder, Parts.introducesAt_iff.mpr ⟨_, member, induction⟩⟩))
  | head loop member declaration _ induction =>
      exact introduces_mk_iff.mpr (.inr (.inr (.inl
        ⟨_, loop, (Parts.introducesAt_head_iff loop).mpr ⟨_, member, declaration, induction⟩⟩)))
  | specifier specifies member localName _ induction =>
      have isLocal := introducesLocal_mk_iff.mpr
        ⟨specifies, Parts.introducesAt_iff.mpr ⟨_, localName, induction⟩⟩
      exact introduces_mk_iff.mpr
        (.inr (.inr (.inr ⟨rfl, Parts.introducesLocalAt_iff.mpr ⟨_, member, isLocal⟩⟩)))

/-- As with the names, the second part carries the induction past a specifier. -/
private theorem binds_of_introduces (node : Node) :
    (node.introduces name = true → node.Binds name) ∧
      (node.introducesLocal name = true →
        ∃ (kind : Kind) (inner : Parts kind.layout) (child : Node), node = .mk kind inner ∧
          kind ∈ specifierKinds ∧ (.localName, child) ∈ inner.children ∧ child.Binds name) := by
  induction node using induction_on_children with
  | unsupported => simp [Node.introduces, introducesLocal]
  | mk kind parts induction =>
      constructor
      · rw [introduces_mk_iff]
        rintro (⟨rfl, held⟩ | ⟨field, binder, here⟩ | ⟨field, loop, here⟩ | ⟨rfl, here⟩)
        · exact .identifier held
        · obtain ⟨child, member, below⟩ := Parts.introducesAt_iff.mp here
          exact .slot binder member ((induction field child member).1 below)
        · obtain ⟨child, member, declaration, below⟩ := (Parts.introducesAt_head_iff loop).mp here
          exact .head loop member declaration ((induction field child member).1 below)
        · obtain ⟨child, member, below⟩ := Parts.introducesLocalAt_iff.mp here
          obtain ⟨_, _, _, rfl, specifies, localName, binds⟩ := (induction _ child member).2 below
          exact .specifier specifies member localName binds
      · rw [introducesLocal_mk_iff]
        rintro ⟨specifies, here⟩
        obtain ⟨child, member, below⟩ := Parts.introducesAt_iff.mp here
        exact ⟨kind, parts, child, rfl, specifies, member, (induction _ child member).1 below⟩

/-- The binding test decides whether a chain of binder slots leads to the name. -/
theorem introduces_iff_binds {node : Node} : node.introduces name = true ↔ node.Binds name :=
  ⟨(binds_of_introduces node).1, Binds.introduces⟩

/-- The binding test decides whether the name is one of those that the node binds. -/
theorem introduces_eq_true {node : Node} :
    node.introduces name = true ↔ name ∈ node.names .declares := by
  rw [introduces_iff_binds, mem_names_iff_binds]

/-- What a class hides is bound by its own name. -/
theorem class_hides_iff {kind : Kind} {parts : Parts kind.layout}
    (isClass : kind = .classDeclaration ∨ kind = .classExpression) :
    (mk kind parts).hides name = true ↔ ∃ id, (.id, id) ∈ parts.children ∧ id.Binds name := by
  have same : (mk kind parts).hides name = parts.introducesAt name .id := by
    rcases isClass with rfl | rfl <;> rfl
  simp only [same, Parts.introducesAt_iff, introduces_iff_binds]

/-- What any other node hides is what it binds, unless it is an identifier, which hides nothing. -/
theorem hides_iff_binds {kind : Kind} {parts : Parts kind.layout}
    (noClass : ¬ (kind = .classDeclaration ∨ kind = .classExpression)) :
    (mk kind parts).hides name = true ↔ kind ≠ .identifier ∧ (mk kind parts).Binds name := by
  rw [← introduces_iff_binds]
  cases kind <;> simp [hides] at noClass ⊢

theorem hides_eq_true {node : Node} : node.hides name = true ↔ name ∈ node.names .hides := by
  cases node with
  | unsupported => simp [hides, Node.introduces, names]
  | mk kind parts =>
      by_cases isClass : kind = .classDeclaration ∨ kind = .classExpression
      · have table : ∀ field,
            kind.binds .hides field = if field = .id then some .declares else none := by
          intro field
          rcases isClass with rfl | rfl <;> cases field <;> rfl
        have noIdentifier : kind ≠ .identifier := by rcases isClass with rfl | rfl <;> decide
        rw [class_hides_iff isClass, mem_names_mk]
        simp only [table, noIdentifier, false_and, false_or]
        constructor
        · rintro ⟨id, member, binds⟩
          exact ⟨.id, id, .declares, member, rfl, binds.mem_names⟩
        · rintro ⟨field, child, view, member, selected, inChild⟩
          split at selected
          · rename_i atId
            subst atId
            obtain rfl := Option.some.inj selected
            exact ⟨child, member, mem_names_iff_binds.mp inChild⟩
          · cases selected
      · have table : kind.binds .hides = kind.binds .declares := by
          funext field
          cases kind <;> simp [Kind.binds] at isClass ⊢
        rw [hides_iff_binds isClass, ← mem_names_iff_binds, mem_names_mk, mem_names_mk, table]
        by_cases isIdentifier : kind = .identifier
        · subst isIdentifier
          simp [Kind.binds, Kind.declares]
        · simp [isIdentifier]

end Node

end TreeQuery
