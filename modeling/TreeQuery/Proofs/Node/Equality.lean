import TreeQuery.Node.Equality
import TreeQuery.Proofs.Json.Bounded
import TreeQuery.Proofs.Load.Yield
import TreeQuery.Proofs.Number.Equality

/-!
# When sameness is an equivalence

Nodes compare numbers by value, so nodes that are the same need not be equal, and a node with a
not-a-number is not the same as itself. A value behaves under such a comparison when it is the same
as itself and whatever is the same as it can stand in its place. This passes from numbers to values
and from literals to nodes.
-/

namespace TreeQuery

/-- A value is the same as itself, and whatever is the same as it can stand in its place. -/
structure Interchangeable {α : Type} (same : α → α → Bool) (a : α) : Prop where
  /-- It is the same as itself. -/
  self : same a a = true
  /-- It and what is the same as it compare alike with all others. -/
  replace : ∀ b, same a b = true → ∀ c, same a c = same b c

/-- What may be missing is the same where both are missing or neither. -/
def sameOption {α : Type} (same : α → α → Bool) : Option α → Option α → Bool
  | none, none => true
  | some a, some b => same a b
  | _, _ => false

namespace Interchangeable

variable {α β : Type} {same : α → α → Bool} {other : β → β → Bool}

theorem of_lawful [BEq α] [LawfulBEq α] (a : α) : Interchangeable (· == ·) a where
  self := beq_self_eq_true a
  replace b equal c := by rw [eq_of_beq equal]

/-- A wrapper keeps a comparison in which it differs from all other wrappers. -/
theorem wrap {f : α → β} {a : α} (inner : Interchangeable same a)
    (cases : ∀ b, (∃ a, f a = b) ∨ ∀ a, other (f a) b = false)
    (agree : ∀ a c, other (f a) (f c) = same a c) : Interchangeable other (f a) where
  self := (agree a a).trans inner.self
  replace b equal c := by
    rcases cases b with ⟨b, rfl⟩ | differs
    · rw [agree] at equal
      rcases cases c with ⟨c, rfl⟩ | differs
      · rw [agree, agree, inner.replace b equal]
      · rw [differs, differs]
    · exact absurd equal (Bool.eq_false_iff.mp (differs a))

/-- Lists are compared item by item. -/
theorem list {as : List α} (items : ∀ a ∈ as, Interchangeable same a) :
    Interchangeable (fun as bs => List.isEqv as bs same) as := by
  induction as with
  | nil =>
      refine ⟨rfl, fun bs equal cs => ?_⟩
      cases bs with
      | nil => rfl
      | cons => cases equal
  | cons a as induction =>
      obtain ⟨first, others⟩ := List.forall_mem_cons.mp items
      refine ⟨Bool.and_eq_true_iff.mpr ⟨first.self, (induction others).self⟩, fun bs equal cs => ?_⟩
      cases bs with
      | nil => cases equal
      | cons b bs =>
          obtain ⟨here, later⟩ := Bool.and_eq_true_iff.mp equal
          cases cs with
          | nil => rfl
          | cons c cs =>
              exact congrArg₂ and (first.replace b here c) ((induction others).replace bs later cs)

theorem option {a? : Option α} (held : ∀ a ∈ a?, Interchangeable same a) :
    Interchangeable (sameOption same) a? := by
  cases a? with
  | none =>
      refine ⟨rfl, fun b? equal c? => ?_⟩
      cases b? with
      | none => rfl
      | some => cases equal
  | some a =>
      refine (held a rfl).wrap (fun b? => ?_) fun _ _ => rfl
      cases b? with
      | none => exact .inr fun _ => rfl
      | some b => exact .inl ⟨b, rfl⟩

/-- Where all values are interchangeable, being the same is an equivalence. -/
theorem equivalence {property : α → Prop} (all : ∀ a, property a → Interchangeable same a) :
    Equivalence fun a b : { a : α // property a } => same a.1 b.1 = true where
  refl a := (all a.1 a.2).self
  symm {a b} equal := ((all a.1 a.2).replace b.1 equal a.1).symm.trans (all a.1 a.2).self
  trans {a b c} first second := ((all a.1 a.2).replace b.1 first c.1).trans second

end Interchangeable

/-! ## Numbers and values -/

theorem Double.interchangeable {x : Double} (isNumber : x.isNaN = false) :
    Interchangeable same x where
  self := same_self isNumber
  replace _ equal _ := Bool.eq_iff_iff.mpr
    ⟨fun reached => same_trans (same_symm equal) reached, fun reached => same_trans equal reached⟩

namespace Json

theorem Number.interchangeable {value : Number} (bounded : value.IsBounded) :
    Interchangeable same value := by
  cases value with
  | integer value =>
      refine (Interchangeable.of_lawful value).wrap (fun other => ?_) fun _ _ => rfl
      cases other with
      | integer other => exact .inl ⟨other, rfl⟩
      | double => exact .inr fun _ => rfl
  | double value =>
      have inner := Double.interchangeable (Double.isNaN_of_isFinite bounded)
      refine inner.wrap (fun other => ?_) fun _ _ => rfl
      cases other with
      | integer => exact .inr fun _ => rfl
      | double other => exact .inl ⟨other, rfl⟩

theorem sameItems_eq (as bs : List Json) : sameItems as bs = List.isEqv as bs same := by
  induction as generalizing bs with
  | nil => cases bs <;> rfl
  | cons a as induction =>
      cases bs with
      | nil => rfl
      | cons b bs => exact congrArg _ (induction bs)

/-- Members are the same when their keys are equal and their values are the same. -/
def sameMember (a b : String × Json) : Bool :=
  a.1 == b.1 && a.2.same b.2

theorem sameMembers_eq (as bs : List (String × Json)) :
    sameMembers as bs = List.isEqv as bs sameMember := by
  induction as generalizing bs with
  | nil => cases bs <;> rfl
  | cons a as induction =>
      cases bs with
      | nil => rfl
      | cons b bs => exact congrArg _ (induction bs)

theorem interchangeable_member {member : String × Json}
    (inner : Interchangeable same member.2) : Interchangeable sameMember member where
  self := Bool.and_eq_true_iff.mpr ⟨beq_self_eq_true _, inner.self⟩
  replace other equal third := by
    obtain ⟨key, value⟩ := Bool.and_eq_true_iff.mp equal
    rw [sameMember, sameMember, eq_of_beq key, inner.replace other.2 value]

theorem interchangeable {value : Json} (bounded : value.IsBounded) :
    Interchangeable same value := by
  induction value using induction_on_values with
  | null =>
      refine ⟨rfl, fun other equal third => ?_⟩
      cases other with
      | null => rfl
      | _ => cases equal
  | bool value =>
      refine (Interchangeable.of_lawful value).wrap (fun other => ?_) fun _ _ => rfl
      cases other with
      | bool other => exact .inl ⟨other, rfl⟩
      | _ => exact .inr fun _ => rfl
  | number value =>
      refine (Number.interchangeable bounded.of_number).wrap (fun other => ?_) fun _ _ => rfl
      cases other with
      | number other => exact .inl ⟨other, rfl⟩
      | _ => exact .inr fun _ => rfl
  | string value =>
      refine (Interchangeable.of_lawful value).wrap (fun other => ?_) fun _ _ => rfl
      cases other with
      | string other => exact .inl ⟨other, rfl⟩
      | _ => exact .inr fun _ => rfl
  | array items induction =>
      have inner := Interchangeable.list fun item present =>
        induction item present (bounded.of_item item present)
      refine inner.wrap (fun other => ?_) sameItems_eq
      cases other with
      | array other => exact .inl ⟨other, rfl⟩
      | _ => exact .inr fun _ => rfl
  | object members induction =>
      have inner := Interchangeable.list fun member present =>
        interchangeable_member (induction member present (bounded.of_member member present))
      refine inner.wrap (fun other => ?_) sameMembers_eq
      cases other with
      | object other => exact .inl ⟨other, rfl⟩
      | _ => exact .inr fun _ => rfl

end Json

/-! ## Literals -/

/-- What a literal of a program can hold: no number that is not finite, and of the other values only
lists and objects. -/
inductive LiteralValue.IsSound : LiteralValue → Prop where
  | null : IsSound .null
  | bool (value : Bool) : IsSound (.bool value)
  | number {value : Double} (finite : value.isFinite = true) : IsSound (.number value)
  | text (value : String) : IsSound (.text value)
  | array {items : List Json} (inside : ∀ item ∈ items, item.IsBounded) :
      IsSound (.composite (.array items))
  | object {members : List (String × Json)} (inside : ∀ member ∈ members, member.2.IsBounded) :
      IsSound (.composite (.object members))

namespace LiteralValue

theorem interchangeable_composite {value : Json} (bounded : value.IsBounded) :
    Interchangeable same (.composite value) := by
  refine (Json.interchangeable bounded).wrap (fun other => ?_) fun _ _ => rfl
  cases other with
  | composite other => exact .inl ⟨other, rfl⟩
  | _ => exact .inr fun _ => rfl

theorem interchangeable {value : LiteralValue} (sound : value.IsSound) :
    Interchangeable same value := by
  cases sound with
  | null =>
      refine ⟨rfl, fun other equal third => ?_⟩
      cases other with
      | null => rfl
      | _ => cases equal
  | bool value =>
      refine (Interchangeable.of_lawful value).wrap (fun other => ?_) fun _ _ => rfl
      cases other with
      | bool other => exact .inl ⟨other, rfl⟩
      | _ => exact .inr fun _ => rfl
  | number finite =>
      have inner := Double.interchangeable (Double.isNaN_of_isFinite finite)
      refine inner.wrap (fun other => ?_) fun _ _ => rfl
      cases other with
      | number other => exact .inl ⟨other, rfl⟩
      | _ => exact .inr fun _ => rfl
  | text value =>
      refine (Interchangeable.of_lawful value).wrap (fun other => ?_) fun _ _ => rfl
      cases other with
      | text other => exact .inl ⟨other, rfl⟩
      | _ => exact .inr fun _ => rfl
  | array inside => exact interchangeable_composite (.array inside)
  | object inside => exact interchangeable_composite (.object inside)

end LiteralValue

/-! ## Parts and nodes -/

theorem Node.sameList_eq (as bs : List Node) : sameList as bs = List.isEqv as bs same := by
  induction as generalizing bs with
  | nil => cases bs <;> simp only [sameList, List.isEqv]
  | cons a as induction =>
      cases bs with
      | nil => simp only [sameList, List.isEqv]
      | cons b bs => rw [sameList, List.isEqv, induction]

theorem Node.sameHoles_eq (as bs : List (Option Node)) :
    sameHoles as bs = List.isEqv as bs (sameOption same) := by
  induction as generalizing bs with
  | nil => cases bs <;> simp only [sameHoles, List.isEqv]
  | cons a? as induction =>
      cases bs with
      | nil => cases a? <;> simp only [sameHoles, List.isEqv]
      | cons b? bs =>
          cases a? <;> cases b? <;>
            simp only [sameHoles, List.isEqv, sameOption, induction, Bool.true_and, Bool.false_and]

theorem Part.same_optNode (a? b? : Option Node) :
    same (.optNode a?) (.optNode b?) = sameOption Node.same a? b? := by
  cases a? <;> cases b? <;> simp only [same, sameOption]

/-- A part is interchangeable when the nodes and the literal that it holds are. -/
theorem Part.interchangeable {shape : Shape} {part : Part shape}
    (carries : part.Carries (Interchangeable Node.same) (Interchangeable LiteralValue.same)) :
    Interchangeable same part := by
  -- A part without nodes is compared by an equality that is one.
  have plain {α : Type} [BEq α] [LawfulBEq α] {f : α → Part shape} {a : α}
      (onto : ∀ b, ∃ a, f a = b) (agree : ∀ a c, same (f a) (f c) = (a == c)) :
      Interchangeable same (f a) :=
    (Interchangeable.of_lawful a).wrap (fun b => .inl (onto b)) agree
  cases part with
  | node value =>
      refine (carries.nodes value List.mem_cons_self).wrap (fun other => ?_) fun _ _ => by
        rw [same]
      cases other
      exact .inl ⟨_, rfl⟩
  | optNode value =>
      have inner := Interchangeable.option fun child present =>
        carries.nodes child (Option.mem_toList.mpr present)
      refine inner.wrap (fun other => ?_) same_optNode
      cases other
      exact .inl ⟨_, rfl⟩
  | nodes values =>
      have inner := Interchangeable.list carries.nodes
      refine inner.wrap (fun other => ?_) fun as bs => by rw [same, Node.sameList_eq]
      cases other
      exact .inl ⟨_, rfl⟩
  | holes values =>
      have inner := Interchangeable.list fun hole present =>
        Interchangeable.option fun child isChild =>
          carries.nodes child (List.mem_filterMap.mpr ⟨hole, present, isChild⟩)
      refine inner.wrap (fun other => ?_) fun as bs => by rw [same, Node.sameHoles_eq]
      cases other
      exact .inl ⟨_, rfl⟩
  | literal value =>
      refine (carries.literal value rfl).wrap (fun other => ?_) fun _ _ => by rw [same]
      cases other
      exact .inl ⟨_, rfl⟩
  | choice word =>
      refine plain (fun other => ?_) fun a c => by rw [same]; rfl
      cases other
      exact ⟨_, rfl⟩
  | _ =>
      refine plain (fun other => ?_) fun _ _ => by rw [same]
      cases other
      exact ⟨_, rfl⟩

theorem Parts.interchangeable {slots : List Slot} {parts : Parts slots}
    (all : parts.All
      (Part.Carries (Interchangeable Node.same) (Interchangeable LiteralValue.same))) :
    Interchangeable same parts := by
  induction slots with
  | nil =>
      cases parts
      refine ⟨by rw [same], fun others equal thirds => ?_⟩
      cases others
      rfl
  | cons slot slots induction =>
      cases parts with
      | cons head tail =>
          have first := Part.interchangeable all.1
          have rest := induction all.2
          refine ⟨?_, fun others equal thirds => ?_⟩
          · rw [same, first.self, rest.self, Bool.true_and]
          · cases others with
            | cons other others =>
                cases thirds with
                | cons third thirds =>
                    rw [same] at equal
                    obtain ⟨here, later⟩ := Bool.and_eq_true_iff.mp equal
                    rw [same, same, first.replace other here, rest.replace others later]

namespace Node

theorem same_mk {kind : Kind} (parts others : Parts kind.layout) :
    (mk kind parts).same (mk kind others) = parts.same others := by
  rw [same, dif_pos rfl]

theorem interchangeable_mk {kind : Kind} {parts : Parts kind.layout}
    (all : parts.All (Part.Carries (Interchangeable same) (Interchangeable LiteralValue.same))) :
    Interchangeable same (mk kind parts) := by
  refine (Parts.interchangeable all).wrap (fun node => ?_) same_mk
  cases node with
  | mk other others =>
      by_cases equal : kind = other
      · subst equal
        exact .inl ⟨others, rfl⟩
      · exact .inr fun parts => by rw [same, dif_neg equal]
  | unsupported => exact .inr fun parts => by simp [same]

theorem interchangeable_unsupported : Interchangeable same unsupported := by
  refine ⟨by rw [same], fun other equal third => ?_⟩
  cases other with
  | mk => simp [same] at equal
  | unsupported => rfl

/-- The literal values that a node holds itself are sound. -/
def HasSoundLiterals : Node → Prop
  | .mk _ parts => parts.All fun _ part => ∀ value ∈ part.literal?, value.IsSound
  | .unsupported => True

/-- A node that holds sound literal values throughout is interchangeable. -/
theorem interchangeable {node : Node} (sound : node.Throughout HasSoundLiterals) :
    Interchangeable same node := by
  induction node using induction_on_children with
  | unsupported => exact interchangeable_unsupported
  | mk kind parts induction =>
      have children (member : Field × Node) (present : member ∈ parts.children) :
          Interchangeable same member.2 :=
        induction member.1 member.2 present (sound.child present)
      have literals : parts.All fun _ part =>
          ∀ value ∈ part.literal?, Interchangeable LiteralValue.same value :=
        Parts.All.mono sound.root fun carried value held =>
          LiteralValue.interchangeable (carried value held)
      exact interchangeable_mk (Parts.all_carries_iff.mpr ⟨children, literals⟩)

end Node

end TreeQuery
