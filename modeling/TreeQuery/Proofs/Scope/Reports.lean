import Mathlib.Data.List.Basic
import Mathlib.Tactic.Choose
import TreeQuery.Proofs.Scope.Walk

/-!
# Reports of unsupported nodes

A position says at every level of a tree to which child to go, so that equal nodes in different
places are told apart. A search reports the unsupported nodes at the positions that it gets to, each
once and in the order in which it gets there. When it finds no use, it reports them all; when it
finds one, it reports those that come before the first use.
-/

namespace TreeQuery

/-! ## Positions -/

/-- A place in a tree: at each level, the index of the child to go to. -/
abbrev Position : Type :=
  List Nat

/-- A position leads from a root to a node by the given steps, the last of them listed first. -/
inductive Placed : Node → Position → List Step → Node → Prop where
  | here (node : Node) : Placed node [] [] node
  | down {kind : Kind} {parts : Parts kind.layout} {index : Nat} {field : Field} {child : Node}
      {position : Position} {steps : List Step} {target : Node}
      (member : parts.children[index]? = some (field, child))
      (lower : Placed child position steps target) :
      Placed (.mk kind parts) (index :: position) (steps ++ [⟨kind, parts, field, child⟩]) target

theorem Placed.trail {root target : Node} {position : Position} {steps : List Step}
    (placed : Placed root position steps target) : Trail root steps target := by
  induction placed with
  | here node => exact .here
  | down member _ induction => exact induction.child (List.mem_of_getElem? member)

/-- Of two children of a node, the one with the first index is searched before the other. Children
are searched as they are listed, but of a member expression the property comes first. -/
def Kind.Sooner (kind : Kind) (first second : Nat) : Prop :=
  if kind = .memberExpression then second < first else first < second

theorem Kind.Sooner.asymm {kind : Kind} {first second : Nat} (sooner : kind.Sooner first second) :
    ¬ kind.Sooner second first := by
  unfold Sooner at sooner ⊢
  by_cases member : kind = .memberExpression
  · rw [if_pos member] at sooner ⊢
    omega
  · rw [if_neg member] at sooner ⊢
    omega

/-- A search gets to one position in a tree before it gets to another. -/
inductive Node.Before : Node → Position → Position → Prop where
  /-- A node comes before what is inside it. -/
  | above {node : Node} {index : Nat} {position : Position} : Before node [] (index :: position)
  /-- The positions are in different children. -/
  | apart {kind : Kind} {parts : Parts kind.layout} {first second : Nat}
      {position other : Position} (sooner : kind.Sooner first second) :
      Before (.mk kind parts) (first :: position) (second :: other)
  /-- The positions are in the same child. -/
  | inside {kind : Kind} {parts : Parts kind.layout} {index : Nat} {field : Field} {child : Node}
      {position other : Position} (member : parts.children[index]? = some (field, child))
      (inner : Before child position other) :
      Before (.mk kind parts) (index :: position) (index :: other)

theorem Node.Before.asymm {node : Node} {position other : Position}
    (before : node.Before position other) : ¬ node.Before other position := by
  induction before with
  | above => nofun
  | apart sooner =>
      intro back
      cases back with
      | apart later => exact sooner.asymm later
      | inside => exact sooner.asymm sooner
  | inside member _ induction =>
      intro back
      cases back with
      | apart later => exact later.asymm later
      | inside same inner =>
          obtain ⟨rfl, rfl⟩ := Prod.mk.inj (Option.some.inj (member.symm.trans same))
          exact induction inner

theorem Node.Before.ne {node : Node} {position other : Position}
    (before : node.Before position other) : position ≠ other := by
  rintro rfl
  exact before.asymm before

/-! ## What is seen at a position -/

/-- A search for a name goes on through a step: it is not silent, and it does not enter the inside
of a node that binds the name. -/
def Step.IsOpen (name : String) (step : Step) : Prop :=
  ¬ step.IsSilent ∧ ¬ step.IsShadowed name

/-- What a search notes of the node at the end of a trail. -/
def Sighting.IsOf (name : String) (steps : List Step) (target : Node) : Sighting → Prop
  | .use => target.IsCalled name ∧ (target.isIdentifier = true → ¬ EndsInBinding steps)
  | .unsupported => target = .unsupported

/-- What a search comes upon at a position in a node that itself stands at the end of a trail. -/
def Node.SeenAt (name : String) (earlier : List Step) (node : Node) (position : Position)
    (sighting : Sighting) : Prop :=
  ∃ steps target, Placed node position steps target ∧ (∀ step ∈ steps, step.IsOpen name) ∧
    sighting.IsOf name (steps ++ earlier) target

namespace Node

variable {name : String} {earlier : List Step} {position : Position} {sighting : Sighting}

theorem seenAt_unsupported :
    Node.unsupported.SeenAt name earlier position sighting ↔
      position = [] ∧ sighting = .unsupported := by
  constructor
  · rintro ⟨steps, target, placed, -, noted⟩
    cases placed
    cases sighting with
    | use => exact noted.1.elim
    | unsupported => exact ⟨rfl, rfl⟩
  · rintro ⟨rfl, rfl⟩
    exact ⟨[], .unsupported, .here _, by simp, rfl⟩

section Mk

variable {kind : Kind} {parts : Parts kind.layout}

/-- At a node itself a search sees the use that the node is. -/
theorem seenAt_nil_iff :
    (Node.mk kind parts).SeenAt name earlier [] sighting ↔
      sighting ∈ kind.ownSightings (roleAt earlier) (parts.text? .name) name := by
  have own : sighting ∈ kind.ownSightings (roleAt earlier) (parts.text? .name) name ↔
      sighting = .use ∧ kind.isUse (roleAt earlier) = true ∧ parts.text? .name = some name := by
    unfold Kind.ownSightings
    split
    · rename_i isUse
      simp [isUse]
    · rename_i noUse
      simp [noUse]
  rw [own, isUse_roleAt_iff]
  constructor
  · rintro ⟨steps, target, placed, -, noted⟩
    cases placed
    cases sighting with
    | use => exact ⟨rfl, noted⟩
    | unsupported => cases noted
  · rintro ⟨rfl, noted⟩
    exact ⟨[], .mk kind parts, .here _, by simp, noted⟩

/-- Below a node a search sees what it sees in the children that it goes on to. -/
theorem seenAt_cons_iff {index : Nat} :
    (Node.mk kind parts).SeenAt name earlier (index :: position) sighting ↔
      ∃ field child, parts.children[index]? = some (field, child) ∧
        Step.IsOpen name ⟨kind, parts, field, child⟩ ∧
          child.SeenAt name (⟨kind, parts, field, child⟩ :: earlier) position sighting := by
  constructor
  · rintro ⟨_, target, placed, isOpen, noted⟩
    cases placed with
    | @down _ _ _ field child _ steps _ member lower =>
        refine ⟨field, child, member, isOpen _ (by simp), steps, target, lower, ?_, ?_⟩
        · exact fun step present => isOpen step (List.mem_append_left _ present)
        · rwa [List.append_assoc] at noted
  · rintro ⟨field, child, member, firstOpen, steps, target, lower, isOpen, noted⟩
    refine ⟨_, target, .down member lower, ?_, ?_⟩
    · intro step present
      rcases List.mem_append.mp present with present | last
      · exact isOpen step present
      · obtain rfl := List.mem_singleton.mp last
        exact firstOpen
    · rwa [List.append_assoc]

end Mk

end Node

/-! ## Tours -/

/-- What a search comes upon in a node, with the positions where it does. -/
structure IsTour (name : String) (earlier : List Step) (node : Node)
    (tour : List (Position × Sighting)) : Prop where
  /-- Without the positions it is what the search notes. -/
  sightings : tour.map Prod.snd = node.sightings name (roleAt earlier)
  /-- The positions are listed in the order of the search. -/
  ordered : tour.Pairwise fun first second => node.Before first.1 second.1
  /-- Nothing is left out, and nothing else is there. -/
  complete : ∀ position sighting,
    (position, sighting) ∈ tour ↔ node.SeenAt name earlier position sighting

/-- What a search comes upon in a child of a node; nothing, if it does not go on to the child. -/
structure IsTourThrough (name : String) (earlier : List Step) (step : Step)
    (tour : List (Position × Sighting)) : Prop where
  sightings : tour.map Prod.snd = sightingsThrough name (fun field =>
    (step.kind.treatment (roleAt earlier) field).use? (step.parent.circumstances name))
      (step.field, step.child)
  ordered : tour.Pairwise fun first second => step.child.Before first.1 second.1
  complete : ∀ position sighting, (position, sighting) ∈ tour ↔
    step.IsOpen name ∧ step.child.SeenAt name (step :: earlier) position sighting

theorem IsTourThrough.exists_of_isTour {name : String} {earlier : List Step} (step : Step)
    (member : (step.field, step.child) ∈ step.parts.children)
    (below : ∃ tour, IsTour name (step :: earlier) step.child tour) :
    ∃ tour, IsTourThrough name earlier step tour := by
  obtain ⟨tour, isTour⟩ := below
  have role : ∀ use, (step.kind.treatment (roleAt earlier) step.field).use?
      (step.parent.circumstances name) = some use ↔
        step.IsOpen name ∧ roleAt (step :: earlier) = use := by
    intro use
    rw [step.use?_eq_some_iff member, Step.IsOpen, and_assoc]
    rfl
  by_cases isOpen : step.IsOpen name
  · have searched := (role _).mpr ⟨isOpen, rfl⟩
    refine ⟨tour, ?_, isTour.ordered, fun position sighting => ?_⟩
    · rw [isTour.sightings, sightingsThrough, searched]
      rfl
    · rw [isTour.complete, and_iff_right isOpen]
  · have skipped : (step.kind.treatment (roleAt earlier) step.field).use?
        (step.parent.circumstances name) = none :=
      Option.eq_none_iff_forall_ne_some.mpr fun use searched => isOpen ((role use).mp searched).1
    refine ⟨[], ?_, .nil, fun position sighting => ?_⟩
    · rw [sightingsThrough, skipped]
      rfl
    · simp [isOpen]

/-- The children of a node with their indices, in the order in which a search comes to them. -/
def Kind.indexedChildren (kind : Kind) (parts : Parts kind.layout) : List ((Field × Node) × Nat) :=
  kind.inSearchOrder parts.children.zipIdx

namespace Kind

variable {kind : Kind} {parts : Parts kind.layout}

theorem mem_indexedChildren_iff {member : Field × Node} {index : Nat} :
    (member, index) ∈ kind.indexedChildren parts ↔ parts.children[index]? = some member := by
  rw [← List.mk_mem_zipIdx_iff_getElem?, indexedChildren, mem_inSearchOrder]

theorem map_fst_indexedChildren :
    (kind.indexedChildren parts).map Prod.fst = kind.inSearchOrder parts.children := by
  rw [indexedChildren, map_inSearchOrder, List.zipIdx_map_fst]

theorem indexedChildren_ordered :
    (kind.indexedChildren parts).Pairwise fun first second => kind.Sooner first.2 second.2 := by
  have increasing : parts.children.zipIdx.Pairwise fun first second => first.2 < second.2 := by
    rw [← List.pairwise_map, List.zipIdx_map_snd]
    exact List.pairwise_lt_range' ..
  unfold indexedChildren inSearchOrder Sooner
  split
  · exact List.pairwise_reverse.mpr increasing
  · exact increasing

end Kind

/-- A look at a node and then the tours of its children, one after the other. -/
def Kind.tour (name : String) (earlier : List Step) (kind : Kind) (parts : Parts kind.layout)
    (tours : Field × Node → List (Position × Sighting)) : List (Position × Sighting) :=
  (kind.ownSightings (roleAt earlier) (parts.text? .name) name).map ([], ·) ++
    (kind.indexedChildren parts).flatMap fun member =>
      (tours member.1).map fun seen => (member.2 :: seen.1, seen.2)

namespace Kind

section Tour

variable {name : String} {earlier : List Step} {kind : Kind} {parts : Parts kind.layout}
  {tours : Field × Node → List (Position × Sighting)}
  (through : ∀ field child index, ((field, child), index) ∈ kind.indexedChildren parts →
    IsTourThrough name earlier ⟨kind, parts, field, child⟩ (tours (field, child)))

include through

theorem sightings_tour :
    (kind.tour name earlier parts tours).map Prod.snd =
      (Node.mk kind parts).sightings name (roleAt earlier) := by
  have children : ∀ member ∈ kind.indexedChildren parts,
      (tours member.1).map Prod.snd = sightingsThrough name (fun field =>
        (kind.treatment (roleAt earlier) field).use? ((Node.mk kind parts).circumstances name))
          member.1 :=
    fun member listed => (through _ _ _ listed).sightings
  rw [Node.sightings, Parts.sightings_inSearchOrder, ← Kind.map_fst_indexedChildren,
    List.flatMap_map]
  simp only [tour, List.map_append, List.map_map, Function.comp_def, List.map_id',
    List.map_flatMap]
  rw [List.flatMap_congr children]

theorem tour_ordered :
    (kind.tour name earlier parts tours).Pairwise fun first second =>
      (Node.mk kind parts).Before first.1 second.1 := by
  rw [tour, List.pairwise_append]
  refine ⟨?_, ?_, ?_⟩
  · unfold Kind.ownSightings
    split
    · exact List.pairwise_singleton ..
    · exact .nil
  · rw [List.pairwise_flatMap]
    constructor
    · rintro ⟨⟨field, child⟩, index⟩ listed
      have member := Kind.mem_indexedChildren_iff.mp listed
      exact List.pairwise_map.mpr
        ((through _ _ _ listed).ordered.imp fun inner => .inside member inner)
    · apply Kind.indexedChildren_ordered.imp
      intro first second sooner inFirst fromFirst inSecond fromSecond
      obtain ⟨_, -, rfl⟩ := List.mem_map.mp fromFirst
      obtain ⟨_, -, rfl⟩ := List.mem_map.mp fromSecond
      exact .apart sooner
  · intro own fromOwn below fromBelow
    obtain ⟨_, -, rfl⟩ := List.mem_map.mp fromOwn
    obtain ⟨_, -, inBelow⟩ := List.mem_flatMap.mp fromBelow
    obtain ⟨_, -, rfl⟩ := List.mem_map.mp inBelow
    exact .above

theorem mem_tour_iff {position : Position} {sighting : Sighting} :
    (position, sighting) ∈ kind.tour name earlier parts tours ↔
      (Node.mk kind parts).SeenAt name earlier position sighting := by
  rw [tour, List.mem_append]
  cases position with
  | nil => simp [Node.seenAt_nil_iff]
  | cons index position =>
      rw [Node.seenAt_cons_iff]
      constructor
      · rintro (own | below)
        · simp at own
        · obtain ⟨⟨⟨field, child⟩, _⟩, listed, inBelow⟩ := List.mem_flatMap.mp below
          obtain ⟨⟨_, _⟩, seen, equal⟩ := List.mem_map.mp inBelow
          cases equal
          exact ⟨field, child, Kind.mem_indexedChildren_iff.mp listed,
            ((through _ _ _ listed).complete _ _).mp seen⟩
      · rintro ⟨field, child, member, seen⟩
        have listed := Kind.mem_indexedChildren_iff.mpr member
        have inBelow := ((through _ _ _ listed).complete position sighting).mpr seen
        exact Or.inr (List.mem_flatMap.mpr
          ⟨_, listed, List.mem_map.mpr ⟨(position, sighting), inBelow, rfl⟩⟩)

end Tour

end Kind

theorem IsTour.mk_of_children {name : String} {earlier : List Step} {kind : Kind}
    {parts : Parts kind.layout} {tours : Field × Node → List (Position × Sighting)}
    (through : ∀ field child, (field, child) ∈ parts.children →
      IsTourThrough name earlier ⟨kind, parts, field, child⟩ (tours (field, child))) :
    IsTour name earlier (.mk kind parts) (kind.tour name earlier parts tours) := by
  have inChild : ∀ field child index, ((field, child), index) ∈ kind.indexedChildren parts →
      IsTourThrough name earlier ⟨kind, parts, field, child⟩ (tours (field, child)) := by
    intro field child index listed
    exact through field child (List.mem_of_getElem? (Kind.mem_indexedChildren_iff.mp listed))
  exact ⟨Kind.sightings_tour inChild, Kind.tour_ordered inChild,
    fun _ _ => Kind.mem_tour_iff inChild⟩

/-- Every node has a tour, whatever trail leads to it. -/
theorem exists_isTour (name : String) (node : Node) :
    ∀ earlier, ∃ tour, IsTour name earlier node tour := by
  induction node using Node.induction_on_children with
  | unsupported =>
      intro earlier
      refine ⟨[([], .unsupported)], rfl, List.pairwise_singleton .., fun position sighting => ?_⟩
      simp [Node.seenAt_unsupported]
  | mk kind parts induction =>
      intro earlier
      -- The steps down to a child are one longer, so the induction is over all trails at once.
      have through : ∀ member : Field × Node, ∃ tour, member ∈ parts.children →
          IsTourThrough name earlier ⟨kind, parts, member.1, member.2⟩ tour := by
        rintro ⟨field, child⟩
        by_cases member : (field, child) ∈ parts.children
        · obtain ⟨tour, isTour⟩ := IsTourThrough.exists_of_isTour
            ⟨kind, parts, field, child⟩ member (induction field child member _)
          exact ⟨tour, fun _ => isTour⟩
        · exact ⟨[], fun present => absurd present member⟩
      choose tours isTour using through
      exact ⟨_, IsTour.mk_of_children fun field child member => isTour (field, child) member⟩

/-! ## Reports -/

theorem Search.ofSightings_append (name : String) {passed : List Sighting} (later : List Sighting)
    (unused : Sighting.use ∉ passed) :
    Search.ofSightings name (passed ++ later) =
      ⟨(Search.ofSightings name later).found, passed.map (fun _ => .unsupportedNode name) ++
        (Search.ofSightings name later).diagnostics⟩ := by
  have stays : ∀ sighting ∈ passed, (sighting != .use) = true := by
    intro sighting present
    rw [bne_iff_ne]
    rintro rfl
    exact unused present
  simp [Search.ofSightings, List.takeWhile_append_of_pos stays, unused]

/-- What a search passes before the first use, if there is one, is unsupported nodes. -/
theorem exists_passed (tour : List (Position × Sighting)) :
    ∃ (passed : List Position) (later : List (Position × Sighting)),
      tour = passed.map (·, Sighting.unsupported) ++ later ∧
      (later = [] ∨ ∃ first others, later = (first, .use) :: others) := by
  induction tour with
  | nil => exact ⟨[], [], rfl, Or.inl rfl⟩
  | cons seen tour induction =>
      obtain ⟨position, sighting⟩ := seen
      cases sighting with
      | use => exact ⟨[], _, rfl, Or.inr ⟨position, tour, rfl⟩⟩
      | unsupported =>
          obtain ⟨passed, later, rfl, ends⟩ := induction
          exact ⟨position :: passed, later, rfl, ends⟩

namespace Node

/-- An unsupported node stands at a position to which a search for the name can get: no step on the
way goes through a slot that does not refer to variables, or enters the inside of a node that binds
the name. -/
def UnsupportedAt (name : String) (root : Node) (position : Position) : Prop :=
  ∃ steps, Placed root position steps .unsupported ∧ ∀ step ∈ steps, step.IsOpen name

/-- A use of a name stands at a position. -/
def UsedAt (name : String) (root : Node) (position : Position) : Prop :=
  ∃ steps target, Placed root position steps target ∧ UseTrail name root steps target

/-- The use of a name that a search comes upon before all others. -/
structure IsFirstUse (name : String) (root : Node) (position : Position) : Prop where
  used : root.UsedAt name position
  first : ∀ other, root.UsedAt name other → other = position ∨ root.Before position other

theorem seenAt_unsupported_iff {name : String} {root : Node} {position : Position} :
    root.SeenAt name [] position .unsupported ↔ root.UnsupportedAt name position := by
  constructor
  · rintro ⟨steps, target, placed, isOpen, noted⟩
    obtain rfl : target = .unsupported := noted
    exact ⟨steps, placed, isOpen⟩
  · rintro ⟨steps, placed, isOpen⟩
    exact ⟨steps, .unsupported, placed, isOpen, rfl⟩

theorem seenAt_use_iff {name : String} {root : Node} {position : Position} :
    root.SeenAt name [] position .use ↔ root.UsedAt name position := by
  constructor
  · rintro ⟨steps, target, placed, isOpen, called, unbound⟩
    rw [List.append_nil] at unbound
    exact ⟨steps, target, placed, placed.trail, called, fun step present => (isOpen step present).1,
      unbound, fun step present => (isOpen step present).2⟩
  · rintro ⟨steps, target, placed, use⟩
    refine ⟨steps, target, placed, ?_, use.called, ?_⟩
    · exact fun step present => ⟨use.audible step present, use.visible step present⟩
    · rw [List.append_nil]
      exact use.unbound

end Node

namespace IsTour

variable {name : String} {node : Node} {passed : List Position}
  {later : List (Position × Sighting)}

theorem unsupported_iff {tour : List (Position × Sighting)} (isTour : IsTour name [] node tour)
    {position : Position} :
    (position, Sighting.unsupported) ∈ tour ↔ node.UnsupportedAt name position :=
  (isTour.complete position .unsupported).trans Node.seenAt_unsupported_iff

theorem used_iff {tour : List (Position × Sighting)} (isTour : IsTour name [] node tour)
    {position : Position} : (position, Sighting.use) ∈ tour ↔ node.UsedAt name position :=
  (isTour.complete position .use).trans Node.seenAt_use_iff

/-- A search reports what it passes and goes on with the rest of the tour. -/
theorem search_eq
    (isTour : IsTour name [] node (passed.map (·, Sighting.unsupported) ++ later)) :
    node.search name = ⟨(Search.ofSightings name (later.map Prod.snd)).found,
      passed.map (fun _ => .unsupportedNode name) ++
        (Search.ofSightings name (later.map Prod.snd)).diagnostics⟩ := by
  have search : node.search name = .ofSightings name
      ((passed.map (·, Sighting.unsupported)).map Prod.snd ++ later.map Prod.snd) := by
    rw [← List.map_append, isTour.sightings]
    rfl
  rw [search, Search.ofSightings_append name _ (by simp), List.map_map, List.map_map]
  rfl

/-- The first use on a tour comes before all others. -/
theorem isFirstUse {first : Position}
    (isTour : IsTour name [] node
      (passed.map (·, Sighting.unsupported) ++ (first, .use) :: later)) :
    node.IsFirstUse name first := by
  obtain ⟨-, laterOrdered, -⟩ := List.pairwise_append.mp isTour.ordered
  obtain ⟨firstBefore, -⟩ := List.pairwise_cons.mp laterOrdered
  refine ⟨isTour.used_iff.mp (by simp), fun other isUsed => ?_⟩
  rcases List.mem_append.mp (isTour.used_iff.mpr isUsed) with early | late
  · simp at early
  · rcases List.mem_cons.mp late with same | behind
    · exact Or.inl (congrArg Prod.fst same)
    · exact Or.inr (firstBefore _ behind)

/-- What is passed on a tour before the first use is what comes before it in the search. -/
theorem mem_passed_iff {first position : Position}
    (isTour : IsTour name [] node
      (passed.map (·, Sighting.unsupported) ++ (first, .use) :: later)) :
    position ∈ passed ↔ node.UnsupportedAt name position ∧ node.Before position first := by
  obtain ⟨-, laterOrdered, apart⟩ := List.pairwise_append.mp isTour.ordered
  obtain ⟨firstBefore, -⟩ := List.pairwise_cons.mp laterOrdered
  constructor
  · intro present
    have early : (position, Sighting.unsupported) ∈ passed.map (·, Sighting.unsupported) :=
      List.mem_map_of_mem present
    exact ⟨isTour.unsupported_iff.mp (List.mem_append_left _ early),
      apart _ early _ List.mem_cons_self⟩
  · rintro ⟨isUnsupported, before⟩
    rcases List.mem_append.mp (isTour.unsupported_iff.mpr isUnsupported) with early | late
    · simpa using early
    · rcases List.mem_cons.mp late with same | behind
      · cases same
      · exact absurd before (firstBefore _ behind).asymm

end IsTour

/-- A search reports unsupported nodes to which it can get, each once, in the order of the search
and with the name. If it finds no use, then it reports all of them. If it finds a use, then it
reports those that come before the first use. -/
theorem Node.search_reports (name : String) (node : Node) :
    ∃ reported : List Position,
      (node.search name).diagnostics = reported.map (fun _ => .unsupportedNode name) ∧
      reported.Nodup ∧ reported.Pairwise node.Before ∧
      (∀ position ∈ reported, node.UnsupportedAt name position) ∧
      ((node.search name).found = false →
        ∀ position, node.UnsupportedAt name position → position ∈ reported) ∧
      ((node.search name).found = true → ∃ first, node.IsFirstUse name first ∧
        ∀ position, position ∈ reported ↔
          node.UnsupportedAt name position ∧ node.Before position first) := by
  obtain ⟨tour, isTour⟩ := exists_isTour name node []
  obtain ⟨reported, later, rfl, ends⟩ := exists_passed tour
  have ordered : reported.Pairwise node.Before := by
    have passedFirst := (List.pairwise_append.mp isTour.ordered).1
    rwa [List.pairwise_map] at passedFirst
  have sound : ∀ position ∈ reported, node.UnsupportedAt name position := fun position present =>
    isTour.unsupported_iff.mp (List.mem_append_left _ (List.mem_map_of_mem present))
  refine ⟨reported, ?_, ordered.imp Before.ne, ordered, sound, ?_⟩
  · rw [isTour.search_eq]
    obtain rfl | ⟨first, others, rfl⟩ := ends <;> simp [Search.ofSightings]
  · rw [isTour.search_eq]
    obtain rfl | ⟨first, others, rfl⟩ := ends
    · refine ⟨fun _ position isUnsupported => ?_, fun found => ?_⟩
      · simpa using isTour.unsupported_iff.mpr isUnsupported
      · simp [Search.ofSightings] at found
    · refine ⟨fun notFound => ?_, fun _ => ⟨first, isTour.isFirstUse, fun position => ?_⟩⟩
      · simp [Search.ofSightings] at notFound
      · exact isTour.mem_passed_iff

/-- The label is not searched. The name in its statement stands between the other two. -/
example :
    let foo := Node.make .identifier ("foo", ())
    let labeled := Node.make .labeledStatement (.unsupported, foo, ())
    let node := Node.make .blockStatement ([.unsupported, labeled, .unsupported], ())
    node.search "foo" = ⟨true, [.unsupportedNode "foo"]⟩ ∧
      node.search "bar" = ⟨false, [.unsupportedNode "bar", .unsupportedNode "bar"]⟩ := by
  decide

end TreeQuery
