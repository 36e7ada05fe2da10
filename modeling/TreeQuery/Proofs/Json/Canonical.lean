import Mathlib.Data.String.Basic
import TreeQuery.Json.Basic

/-!
# The canonical form of a JSON value

The canonical form lists the members of every object in the order of their keys, and of members that
repeat a key only the last. So it can be looked up instead of walked through: a key leads to the
canonical form of the last member with that key. Values without repeated keys that differ only in
the order of members have the same canonical form.
-/

namespace TreeQuery.Json

/-- What holds of a value when it holds of the values inside it holds of every value. -/
theorem induction_on_values {motive : Json → Prop} (null : motive .null)
    (bool : ∀ value, motive (.bool value)) (number : ∀ value, motive (.number value))
    (string : ∀ value, motive (.string value))
    (array : ∀ items, (∀ item ∈ items, motive item) → motive (.array items))
    (object : ∀ members, (∀ member ∈ members, motive member.2) → motive (.object members)) :
    ∀ value, motive value
  | .null => null
  | .bool value => bool value
  | .number value => number value
  | .string value => string value
  | .array items => array items fun item present =>
      have := List.sizeOf_lt_of_mem present
      induction_on_values null bool number string array object item
  | .object members => object members fun member present =>
      have := List.sizeOf_lt_of_mem present
      have : sizeOf member.2 < sizeOf member := by cases member; simp
      induction_on_values null bool number string array object member.2
termination_by value => sizeOf value
decreasing_by all_goals (simp; omega)

/-! ## Look-up -/

/-- The value of the last member with a key. -/
def lastMember? (key : String) (members : List (String × Json)) : Option Json :=
  member? key members.reverse

theorem member?_cons {key other : String} {value : Json} {members : List (String × Json)} :
    member? key ((other, value) :: members) =
      if key = other then some value else member? key members := by
  rw [member?, List.lookup_cons]
  by_cases same : key = other
  · simp [same]
  · simp [same, beq_eq_false_iff_ne.mpr same, member?]

theorem mem_of_member?_eq_some {key : String} {value : Json} {members : List (String × Json)}
    (found : member? key members = some value) : (key, value) ∈ members := by
  obtain ⟨before, after, rfl, -⟩ := List.lookup_eq_some_iff.mp found
  simp

theorem member?_eq_none_iff {key : String} {members : List (String × Json)} :
    member? key members = none ↔ key ∉ members.map Prod.fst := by
  simp only [member?, List.lookup_eq_none_iff, bne_iff_ne, List.mem_map, not_exists, not_and]
  exact ⟨fun apart member present same => apart member present same.symm,
    fun apart member present same => apart member present same.symm⟩

/-- Where no key is repeated, a member is found by its key. -/
theorem member?_eq_some_iff {key : String} {value : Json} {members : List (String × Json)}
    (distinct : (members.map Prod.fst).Nodup) :
    member? key members = some value ↔ (key, value) ∈ members := by
  refine ⟨mem_of_member?_eq_some, fun present => ?_⟩
  induction members with
  | nil => cases present
  | cons member members induction =>
      obtain ⟨other, held⟩ := member
      obtain ⟨fresh, distinct⟩ := List.nodup_cons.mp distinct
      rw [member?_cons]
      rcases List.mem_cons.mp present with same | later
      · obtain ⟨rfl, rfl⟩ := Prod.mk.inj same
        exact if_pos rfl
      · rw [if_neg, induction distinct later]
        rintro rfl
        exact fresh (List.mem_map.mpr ⟨_, later, rfl⟩)

theorem mem_of_lastMember?_eq_some {key : String} {value : Json} {members : List (String × Json)}
    (found : lastMember? key members = some value) : (key, value) ∈ members :=
  List.mem_reverse.mp (mem_of_member?_eq_some found)

theorem lastMember?_cons {key other : String} {value : Json} {members : List (String × Json)} :
    lastMember? key ((other, value) :: members) =
      (lastMember? key members).or (if key = other then some value else none) := by
  rw [lastMember?, List.reverse_cons, member?, List.lookup_append]
  exact congrArg (Option.or _) member?_cons

theorem lastMember?_eq_member? {key : String} {members : List (String × Json)}
    (distinct : (members.map Prod.fst).Nodup) : lastMember? key members = member? key members := by
  have distinctBackward : (members.reverse.map Prod.fst).Nodup :=
    (members.reverse_perm.map Prod.fst).nodup_iff.mpr distinct
  apply Option.ext
  intro value
  rw [member?_eq_some_iff distinct, lastMember?, member?_eq_some_iff distinctBackward,
    List.mem_reverse]

/-! ## Sorted members -/

/-- The keys of the members increase. -/
def Sorted (members : List (String × Json)) : Prop :=
  members.Pairwise fun first second => first.1 < second.1

theorem Sorted.nodup {members : List (String × Json)} (sorted : Sorted members) :
    (members.map Prod.fst).Nodup :=
  List.pairwise_map.mpr (sorted.imp fun less => ne_of_lt less)

theorem eq_of_perm_of_sorted {members others : List (String × Json)} (perm : members.Perm others)
    (sorted : Sorted members) (otherSorted : Sorted others) : members = others :=
  perm.eq_of_pairwise (fun _ _ _ _ less greater => absurd greater less.asymm) sorted otherSorted

theorem mem_keys_insertMember {key other : String} {value : Json}
    {members : List (String × Json)} :
    other ∈ (insertMember key value members).map Prod.fst ↔
      other = key ∨ other ∈ members.map Prod.fst := by
  induction members with
  | nil => simp [insertMember]
  | cons member members induction =>
      obtain ⟨first, held⟩ := member
      rw [insertMember]
      split
      · rename_i same
        simp [same]
      · split
        · simp
        · simp only [List.map_cons, List.mem_cons, induction]
          exact or_left_comm

theorem sorted_insertMember {key : String} {value : Json} {members : List (String × Json)}
    (sorted : Sorted members) : Sorted (insertMember key value members) := by
  induction members with
  | nil => exact List.pairwise_singleton _ _
  | cons member members induction =>
      obtain ⟨first, held⟩ := member
      obtain ⟨least, sorted⟩ := List.pairwise_cons.mp sorted
      rw [insertMember]
      split
      · exact List.pairwise_cons.mpr ⟨least, sorted⟩
      · rename_i different
        split
        · rename_i less
          refine List.pairwise_cons.mpr ⟨?_, List.pairwise_cons.mpr ⟨least, sorted⟩⟩
          intro other present
          rcases List.mem_cons.mp present with rfl | later
          · exact less
          · exact less.trans (least other later)
        · rename_i notLess
          have greater : first < key := lt_of_le_of_ne (not_lt.mp notLess) (Ne.symm different)
          refine List.pairwise_cons.mpr ⟨?_, induction sorted⟩
          intro other present
          rcases mem_keys_insertMember.mp (List.mem_map_of_mem present) with same | inMembers
          · exact same ▸ greater
          · obtain ⟨found, inMembers, same⟩ := List.mem_map.mp inMembers
            exact same ▸ least found inMembers

theorem insertMember_of_mem {key : String} {value : Json} {members : List (String × Json)}
    (sorted : Sorted members) (present : key ∈ members.map Prod.fst) :
    insertMember key value members = members := by
  induction members with
  | nil => cases present
  | cons member members induction =>
      obtain ⟨first, held⟩ := member
      obtain ⟨least, sorted⟩ := List.pairwise_cons.mp sorted
      rw [insertMember]
      split
      · rfl
      · rename_i different
        rcases List.mem_cons.mp present with same | later
        · exact absurd same different
        · obtain ⟨found, inMembers, rfl⟩ := List.mem_map.mp later
          rw [if_neg (least found inMembers).asymm, induction sorted later]

theorem insertMember_perm {key : String} {value : Json} {members : List (String × Json)}
    (fresh : key ∉ members.map Prod.fst) :
    (insertMember key value members).Perm ((key, value) :: members) := by
  induction members with
  | nil => exact .refl _
  | cons member members induction =>
      obtain ⟨first, held⟩ := member
      simp only [List.map_cons, List.mem_cons, not_or] at fresh
      rw [insertMember, if_neg fresh.1]
      split
      · exact .refl _
      · exact ((induction fresh.2).cons _).trans (.swap ..)

/-! ## Canonical forms -/

theorem canonicalItems_eq_map (items : List Json) : canonicalItems items = items.map canonical := by
  induction items with
  | nil => rfl
  | cons item items induction => rw [canonicalItems, induction, List.map_cons]

theorem sorted_canonicalMembers (members : List (String × Json)) :
    Sorted (canonicalMembers members) := by
  induction members with
  | nil => exact .nil
  | cons member members induction => exact sorted_insertMember induction

theorem mem_keys_canonicalMembers {key : String} {members : List (String × Json)} :
    key ∈ (canonicalMembers members).map Prod.fst ↔ key ∈ members.map Prod.fst := by
  induction members with
  | nil => rfl
  | cons member members induction =>
      obtain ⟨first, held⟩ := member
      rw [canonicalMembers, mem_keys_insertMember, induction]
      exact List.mem_cons.symm

/-- In the canonical form a key leads to the canonical form of its last value. -/
theorem member?_canonicalMembers (key : String) (members : List (String × Json)) :
    member? key (canonicalMembers members) = (lastMember? key members).map canonical := by
  induction members with
  | nil => rfl
  | cons member members induction =>
      obtain ⟨first, held⟩ := member
      rw [canonicalMembers, lastMember?_cons, Option.map_or, ← induction]
      have sorted := sorted_canonicalMembers members
      -- A member whose key comes again is dropped; any other is put among those that follow.
      by_cases repeated : first ∈ (canonicalMembers members).map Prod.fst
      · rw [insertMember_of_mem sorted repeated]
        split
        · rename_i same
          have found := member?_eq_none_iff.not_left.mpr (same ▸ repeated)
          obtain ⟨value, found⟩ := Option.ne_none_iff_exists'.mp found
          rw [found]
          rfl
        · simp
      · have perm : (insertMember first held.canonical (canonicalMembers members)).Perm
            ((first, held.canonical) :: canonicalMembers members) := insertMember_perm repeated
        have fresh : member? first (canonicalMembers members) = none :=
          member?_eq_none_iff.mpr repeated
        apply Option.ext
        intro value
        rw [member?_eq_some_iff (sorted_insertMember sorted).nodup, perm.mem_iff, List.mem_cons,
          ← member?_eq_some_iff sorted.nodup]
        split
        · rename_i same
          subst same
          simp [fresh, eq_comm]
        · rename_i different
          simp [different]

theorem canonicalMembers_perm {members : List (String × Json)}
    (distinct : (members.map Prod.fst).Nodup) :
    (canonicalMembers members).Perm (members.map fun member => (member.1, member.2.canonical)) := by
  induction members with
  | nil => exact .refl _
  | cons member members induction =>
      obtain ⟨first, held⟩ := member
      obtain ⟨fresh, distinct⟩ := List.nodup_cons.mp distinct
      have absent : first ∉ (canonicalMembers members).map Prod.fst :=
        mem_keys_canonicalMembers.not.mpr fresh
      exact (insertMember_perm absent).trans ((induction distinct).cons _)

theorem exists_of_mem_canonicalMembers {member : String × Json} {members : List (String × Json)}
    (present : member ∈ canonicalMembers members) :
    ∃ value, (member.1, value) ∈ members ∧ member.2 = value.canonical := by
  have found : member? member.1 (canonicalMembers members) = some member.2 :=
    (member?_eq_some_iff (sorted_canonicalMembers members).nodup).mpr present
  rw [member?_canonicalMembers, Option.map_eq_some_iff] at found
  obtain ⟨value, last, same⟩ := found
  exact ⟨value, mem_of_lastMember?_eq_some last, same.symm⟩

@[simp] theorem canonical_canonical (value : Json) :
    value.canonical.canonical = value.canonical := by
  induction value using induction_on_values with
  | array items induction =>
      simp only [canonical, canonicalItems_eq_map, List.map_map]
      exact congrArg _ (List.map_congr_left induction)
  | object members induction =>
      simp only [canonical]
      refine congrArg _ (eq_of_perm_of_sorted ?_ (sorted_canonicalMembers _)
        (sorted_canonicalMembers members))
      have unchanged : (canonicalMembers members).map
          (fun member => (member.1, member.2.canonical)) = canonicalMembers members := by
        refine (List.map_congr_left fun member present => ?_).trans (List.map_id _)
        obtain ⟨value, inMembers, same⟩ := exists_of_mem_canonicalMembers present
        rw [same, induction _ inMembers, ← same]
        rfl
      have perm := canonicalMembers_perm (sorted_canonicalMembers members).nodup
      rwa [unchanged] at perm
  | _ => rfl

/-! ## Values without repeated keys -/

/-- No object inside a value repeats a key. -/
inductive Distinct : Json → Prop where
  | null : Distinct .null
  | bool (value : Bool) : Distinct (.bool value)
  | number (value : Number) : Distinct (.number value)
  | string (value : String) : Distinct (.string value)
  | array {items : List Json} (inside : ∀ item ∈ items, Distinct item) : Distinct (.array items)
  | object {members : List (String × Json)} (keys : (members.map Prod.fst).Nodup)
      (inside : ∀ member ∈ members, Distinct member.2) : Distinct (.object members)

theorem Distinct.of_item {items : List Json} (distinct : Distinct (.array items)) :
    ∀ item ∈ items, item.Distinct := by
  cases distinct with
  | array inside => exact inside

theorem Distinct.of_member {members : List (String × Json)}
    (distinct : Distinct (.object members)) :
    ∀ member ∈ members, member.2.Distinct := by
  cases distinct with
  | object _ inside => exact inside

theorem distinct_canonical (value : Json) : value.canonical.Distinct := by
  induction value using induction_on_values with
  | null => exact .null
  | bool value => exact .bool value
  | number value => exact .number value
  | string value => exact .string value
  | array items induction =>
      rw [canonical, canonicalItems_eq_map]
      exact .array (List.forall_mem_map.mpr induction)
  | object members induction =>
      refine .object (sorted_canonicalMembers members).nodup fun member present => ?_
      obtain ⟨value, inMembers, same⟩ := exists_of_mem_canonicalMembers present
      rw [same]
      exact induction _ inMembers

/-- The members of objects stand in another order, at any depth. -/
inductive Rearranged : Json → Json → Prop where
  | refl (value : Json) : Rearranged value value
  | trans {first second third : Json} (before : Rearranged first second)
      (after : Rearranged second third) : Rearranged first third
  | permute {members others : List (String × Json)} (perm : members.Perm others) :
      Rearranged (.object members) (.object others)
  | item {before after : List Json} {value other : Json} (inside : Rearranged value other) :
      Rearranged (.array (before ++ value :: after)) (.array (before ++ other :: after))
  | member {before after : List (String × Json)} {key : String} {value other : Json}
      (inside : Rearranged value other) :
      Rearranged (.object (before ++ (key, value) :: after))
        (.object (before ++ (key, other) :: after))

namespace Rearranged

theorem distinct {value other : Json} (rearranged : Rearranged value other)
    (distinct : Distinct value) : Distinct other := by
  induction rearranged with
  | refl _ => exact distinct
  | trans _ _ first second => exact second (first distinct)
  | permute perm =>
      cases distinct with
      | object keys inside =>
          exact .object ((perm.map Prod.fst).nodup_iff.mp keys) fun member present =>
            inside member (perm.mem_iff.mpr present)
  | item _ induction =>
      cases distinct with
      | array inside =>
          refine .array fun item present => ?_
          rcases List.mem_append.mp present with earlier | later
          · exact inside item (List.mem_append_left _ earlier)
          · rcases List.mem_cons.mp later with rfl | later
            · exact induction (inside _ (by simp))
            · exact inside item (by simp [later])
  | @member _ _ key value _ _ induction =>
      cases distinct with
      | object keys inside =>
          refine .object (by simpa using keys) fun member present => ?_
          rcases List.mem_append.mp present with earlier | later
          · exact inside member (List.mem_append_left _ earlier)
          · rcases List.mem_cons.mp later with rfl | later
            · exact induction (inside (key, value) (by simp))
            · exact inside member (by simp [later])

/-- Rearranging members changes nothing in the canonical form unless keys are repeated. -/
theorem canonical_eq {value other : Json} (rearranged : Rearranged value other)
    (distinct : Distinct value) : value.canonical = other.canonical := by
  induction rearranged with
  | refl _ => rfl
  | trans before _ first second => exact (first distinct).trans (second (before.distinct distinct))
  | permute perm =>
      cases distinct with
      | object keys _ =>
          simp only [canonical]
          refine congrArg _ (eq_of_perm_of_sorted ?_ (sorted_canonicalMembers _)
            (sorted_canonicalMembers _))
          exact (canonicalMembers_perm keys).trans ((perm.map _).trans
            (canonicalMembers_perm ((perm.map Prod.fst).nodup_iff.mp keys)).symm)
  | item _ induction =>
      cases distinct with
      | array inside =>
          have same := induction (inside _ (by simp))
          simp [canonical, canonicalItems_eq_map, same]
  | @member before after key value other inner induction =>
      cases distinct with
      | object keys inside =>
          have same := induction (inside (key, value) (by simp))
          have front : ∀ members : List (String × Json),
              canonicalMembers (members ++ (key, value) :: after) =
                canonicalMembers (members ++ (key, other) :: after) := by
            intro members
            induction members with
            | nil => simp only [List.nil_append, canonicalMembers, same]
            | cons member members induction =>
                simp only [List.cons_append, canonicalMembers, induction]
          rw [canonical, canonical, front]

end Rearranged

end TreeQuery.Json
