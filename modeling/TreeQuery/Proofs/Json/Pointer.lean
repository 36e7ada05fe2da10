import TreeQuery.Json.Pointer
import TreeQuery.Proofs.Json.Canonical
import TreeQuery.Proofs.Number.Digits

/-!
# Change at a pointer

A pointer leads to at most one place, and what stands there can be changed while everything else
stays. A pointer that is put together from two is followed, and changes, in two stages. Where no key
is repeated, it leads to the same place in the canonical form. Every pointer can be written.
-/

namespace TreeQuery.Json.Pointer

/-- The members of an object with the value of a key changed. -/
def changeMember (key : String) (f : Json → Json) (members : List (String × Json)) :
    List (String × Json) :=
  members.map fun member => (member.1, if member.1 = key then f member.2 else member.2)

/-- A value with a change where one token leads. -/
def changeStep (token : String) (f : Json → Json) : Json → Json
  | .object members => .object (changeMember token f members)
  | .array items =>
      match index? token with
      | some index => .array (items.modify index f)
      | none => .array items
  | value => value

/-- A value with a change where the tokens lead. -/
def change (f : Json → Json) : Pointer → Json → Json
  | [], value => f value
  | token :: tokens, value => changeStep token (change f tokens) value

/-- A value with another value in the place where the tokens lead. -/
def replace (pointer : Pointer) (new : Json) : Json → Json :=
  pointer.change fun _ => new

/-! ## Two stages -/

theorem resolve?_append (outer inner : Pointer) (value : Json) :
    resolve? (outer ++ inner) value = (outer.resolve? value).bind inner.resolve? := by
  induction outer generalizing value with
  | nil => rfl
  | cons token tokens induction =>
      rw [List.cons_append, resolve?, resolve?, Option.bind_assoc]
      exact congrArg (Option.bind _) (funext induction)

theorem change_append (f : Json → Json) (outer inner : Pointer) (value : Json) :
    change f (outer ++ inner) value = outer.change (inner.change f) value := by
  induction outer generalizing value with
  | nil => rfl
  | cons token tokens induction =>
      rw [List.cons_append, change, change]
      exact congrArg (changeStep token · value) (funext induction)

/-! ## Members -/

theorem lastMember?_changeMember (key other : String) (f : Json → Json)
    (members : List (String × Json)) :
    lastMember? other (changeMember key f members) =
      if other = key then (lastMember? other members).map f else lastMember? other members := by
  induction members with
  | nil => simp [changeMember, lastMember?, member?]
  | cons member members induction =>
      obtain ⟨first, held⟩ := member
      change lastMember? other ((first, if first = key then f held else held) ::
        changeMember key f members) = _
      rw [lastMember?_cons, lastMember?_cons, induction]
      by_cases isKey : other = key
      · subst isKey
        by_cases here : other = first
        · simp [here]
        · simp [here]
      · by_cases here : other = first
        · simp [← here, isKey]
        · simp [here, isKey]

/-! ## Items -/

/-- An index is read back from its digits. -/
theorem index?_repr (index : Nat) : index? index.repr = some index := by
  by_cases zero : index = 0
  · subst zero
    rfl
  · have noZero := Numeric.head?_toDigits_ne_zero (Nat.pos_of_ne_zero zero)
    have allDigits : (Nat.toDigits 10 index).all Char.isDigit = true := by
      rw [List.all_eq_true]
      intro digit present
      exact Nat.isDigit_of_mem_toDigits (by omega) (by omega) present
    rw [index?, Nat.toList_repr]
    split
    · exact absurd ‹_› Nat.toDigits_ne_nil
    · rename_i digits
      exact absurd (congrArg List.head? digits) noZero
    · rename_i digits
      exact absurd (congrArg List.head? digits) noZero
    · rw [if_pos allDigits, Nat.ofDigitChars_toDigits (by omega) (by omega)]

/-- The digits of its index lead to an item of a list. -/
theorem step?_item (before after : List Json) (item : Json) :
    step? before.length.repr (.array (before ++ item :: after)) = some item := by
  simp [step?, index?_repr]

theorem changeStep_item (f : Json → Json) (before after : List Json) (item : Json) :
    changeStep before.length.repr f (.array (before ++ item :: after)) =
      .array (before ++ f item :: after) := by
  rw [changeStep, index?_repr]
  dsimp only
  rw [List.modify_eq_take_cons_drop (by simp)]
  simp

/-! ## What passes to the values inside -/

section Inside

variable {holds : Json → Prop}
  (item : ∀ {items : List Json}, holds (.array items) → ∀ item ∈ items, holds item)
  (member : ∀ {members : List (String × Json)}, holds (.object members) →
    ∀ member ∈ members, holds member.2)

include item member

theorem holds_of_step? {token : String} {value inner : Json} (whole : holds value)
    (found : step? token value = some inner) : holds inner := by
  cases value with
  | object members => exact member whole _ (mem_of_member?_eq_some found)
  | array items =>
      obtain ⟨index, -, present⟩ := Option.bind_eq_some_iff.mp found
      exact item whole inner (List.mem_of_getElem? present)
  | _ => cases found

/-- What passes to items and to members passes to the value that a pointer selects. -/
theorem holds_of_resolve? {pointer : Pointer} {value inner : Json} (whole : holds value)
    (found : pointer.resolve? value = some inner) : holds inner := by
  induction pointer generalizing value with
  | nil => exact Option.some.inj found ▸ whole
  | cons token tokens induction =>
      obtain ⟨next, step, rest⟩ := Option.bind_eq_some_iff.mp found
      exact induction (holds_of_step? item member whole step) rest

end Inside

/-! ## Values without repeated keys -/

theorem distinct_of_step? {token : String} {value inner : Json} (distinct : value.Distinct)
    (found : step? token value = some inner) : inner.Distinct :=
  holds_of_step? Distinct.of_item Distinct.of_member distinct found

theorem distinct_of_resolve? {pointer : Pointer} {value inner : Json} (distinct : value.Distinct)
    (found : pointer.resolve? value = some inner) : inner.Distinct :=
  holds_of_resolve? Distinct.of_item Distinct.of_member distinct found

theorem step?_canonical (token : String) {value : Json} (distinct : value.Distinct) :
    step? token value.canonical = (step? token value).map canonical := by
  cases distinct with
  | object keys _ =>
      rw [canonical, step?, member?_canonicalMembers, lastMember?_eq_member? keys]
      rfl
  | array _ =>
      rw [canonical, step?, step?, canonicalItems_eq_map]
      cases index? token <;> simp
  | _ => rfl

/-- A pointer leads to the same place in the canonical form. -/
theorem resolve?_canonical (pointer : Pointer) {value : Json} (distinct : value.Distinct) :
    pointer.resolve? value.canonical = (pointer.resolve? value).map canonical := by
  induction pointer generalizing value with
  | nil => rfl
  | cons token tokens induction =>
      rw [resolve?, resolve?, step?_canonical token distinct]
      cases step : step? token value with
      | none => rfl
      | some inner => exact induction (distinct_of_step? distinct step)

/-! ## Writing -/

/-- A token with its tildes and slashes escaped. -/
def escape : List Char → List Char
  | [] => []
  | '~' :: rest => '~' :: '0' :: escape rest
  | '/' :: rest => '~' :: '1' :: escape rest
  | c :: rest => c :: escape rest

theorem unescape_escape (token : List Char) : unescape (escape token) = token := by
  fun_induction escape token with
  | case1 => rfl
  | case2 rest induction => rw [unescape, induction]
  | case3 rest induction => rw [unescape, induction]
  | case4 c rest noTilde _ induction =>
      rw [unescape, induction]
      · exact fun _ tilde => absurd tilde noTilde
      · exact fun _ tilde => absurd tilde noTilde

theorem slash_notMem_escape (token : List Char) : '/' ∉ escape token := by
  fun_induction escape token with
  | case1 => simp
  | case2 rest induction => simpa using induction
  | case3 rest induction => simpa using induction
  | case4 c rest _ noSlash induction => simp [induction, Ne.symm noSlash]

/-- A text with one character replaced by a text wherever it stands. -/
def substitute (old : Char) (new text : List Char) : List Char :=
  text.flatMap fun c => if c = old then new else [c]

/-- A pointer in writing: every token follows a slash, and in a token first the tildes and then the
slashes are replaced. -/
def write (tokens : Pointer) : String :=
  String.ofList (tokens.flatMap fun token =>
    '/' :: substitute '/' ['~', '1'] (substitute '~' ['~', '0'] token.toList))

/-- Slashes that are replaced after the tildes can as well be replaced together with them. -/
theorem substitute_substitute (token : List Char) :
    substitute '/' ['~', '1'] (substitute '~' ['~', '0'] token) = escape token := by
  fun_induction escape token with
  | case1 => rfl
  | case2 rest induction => simpa [substitute] using induction
  | case3 rest induction => simpa [substitute] using induction
  | case4 c rest noTilde noSlash induction =>
      have other : c ≠ '~' ∧ c ≠ '/' := ⟨noTilde, noSlash⟩
      simpa [substitute, other] using induction

theorem flatMap_slash_cons (first : List Char) (others : List (List Char)) :
    (first :: others).flatMap ('/' :: ·) = '/' :: ['/'].intercalate (first :: others) := by
  induction others generalizing first with
  | nil => simp
  | cons second others induction =>
      rw [List.flatMap_cons, induction second]
      simp

/-- A written pointer is read back. -/
theorem parse?_write (tokens : Pointer) : parse? (write tokens) = some tokens := by
  cases tokens with
  | nil => rfl
  | cons token tokens =>
      let escaped := (token :: tokens).map fun token => escape token.toList
      have written : (write (token :: tokens)).toList = '/' :: ['/'].intercalate escaped := by
        rw [write, String.toList_ofList]
        simp only [substitute_substitute]
        exact (List.flatMap_map ..).symm.trans (flatMap_slash_cons ..)
      have read : (['/'].intercalate escaped).splitOn '/' = escaped := by
        apply List.splitOn_intercalate
        · intro written present
          obtain ⟨token, -, rfl⟩ := List.mem_map.mp present
          exact slash_notMem_escape token.toList
        · exact List.cons_ne_nil _ _
      rw [parse?, written]
      change some ((List.splitOn '/' (['/'].intercalate escaped)).map _) = _
      rw [read, List.map_map]
      refine congrArg some ((List.map_congr_left fun token _ => ?_).trans (List.map_id _))
      rw [Function.comp_apply, unescape_escape, String.ofList_toList]
      rfl

end TreeQuery.Json.Pointer
