import Mathlib.Algebra.Module.Submodule.Lattice
import Mathlib.Data.List.Permutation
import TreeQuery.Command.Run
import TreeQuery.Proofs.Json.Pointer
import TreeQuery.Proofs.Text.Utf8

/-!
# Selection by a pointer

A list of tokens leads from a document to at most one value: through an object to the member with
that very key, and through a list to the item whose index the token writes. Whatever characters the
tokens have, the pointer that writes them selects exactly this value, which is then loaded as if it
were given alone. Where the tokens lead nowhere, nothing of the document is looked at.
-/

namespace TreeQuery

namespace Json.Pointer

/-! ## Where tokens lead -/

/-- One token leads from a value to a value directly inside it. -/
inductive LeadsBy : String → Json → Json → Prop where
  | member {members : List (String × Json)} {key : String} {value : Json}
      (present : (key, value) ∈ members) : LeadsBy key (.object members) value
  | item {items : List Json} {index : Nat} {value : Json} (present : items[index]? = some value) :
      LeadsBy index.repr (.array items) value

/-- The tokens lead, one after the other, from a value to another. -/
inductive Reaches : Pointer → Json → Json → Prop where
  | here (value : Json) : Reaches [] value value
  | there {token : String} {tokens : Pointer} {value next inner : Json}
      (step : LeadsBy token value next) (rest : Reaches tokens next inner) :
      Reaches (token :: tokens) value inner

/-- A token writes an index exactly if it is the decimal of that index. -/
theorem index?_eq_some_iff {token : String} {index : Nat} :
    index? token = some index ↔ token = index.repr := by
  refine ⟨fun read => ?_, fun same => same ▸ index?_repr index⟩
  apply String.toList_injective
  rw [Nat.toList_repr]
  unfold index? at read
  split at read
  · cases read
  · rename_i zero
    cases read
    exact zero
  · cases read
  · rename_i notEmpty _ noLeadingZero
    split at read
    · rename_i allDigits
      cases read
      cases chars : token.toList with
      | nil => exact absurd chars notEmpty
      | cons c digits =>
          rw [chars] at allDigits
          refine (Numeric.toDigits_ofDigitChars_cons ?_ (List.all_eq_true.mp allDigits)).symm
          rintro rfl
          exact noLeadingZero digits chars
    · cases read

/-! ## Look-up -/

section Distinct

variable {value inner : Json} (distinct : value.Distinct)
include distinct

theorem step?_eq_some_iff {token : String} :
    step? token value = some inner ↔ LeadsBy token value inner := by
  cases distinct with
  | @object members keys _ =>
      rw [step?, member?_eq_some_iff keys]
      constructor
      · exact .member
      · intro leads
        cases leads with
        | member present => exact present
  | @array items _ =>
      rw [step?, Option.bind_eq_some_iff]
      constructor
      · rintro ⟨index, read, present⟩
        obtain rfl := index?_eq_some_iff.mp read
        exact .item present
      · rintro (_ | present)
        exact ⟨_, index?_repr _, present⟩
  | _ =>
      constructor
      · intro found
        cases found
      · intro leads
        cases leads

/-- Where no key is repeated, look-up finds the value to which the tokens lead. -/
theorem resolve?_eq_some_iff {tokens : Pointer} :
    tokens.resolve? value = some inner ↔ Reaches tokens value inner := by
  induction tokens generalizing value with
  | nil =>
      rw [resolve?, Option.some.injEq]
      constructor
      · rintro rfl
        exact .here value
      · intro reaches
        cases reaches
        rfl
  | cons token tokens induction =>
      rw [resolve?, Option.bind_eq_some_iff]
      constructor
      · rintro ⟨next, step, rest⟩
        have reached := (induction (distinct_of_step? distinct step)).mp rest
        exact .there ((step?_eq_some_iff distinct).mp step) reached
      · rintro (_ | ⟨leads, reached⟩)
        have step := (step?_eq_some_iff distinct).mpr leads
        exact ⟨_, step, (induction (distinct_of_step? distinct step)).mpr reached⟩

end Distinct

end Json.Pointer

/-! ## Loading what is selected -/

namespace Command

open Json.Pointer

theorem exists_parse_of_document {text : List Char} {value : Json}
    (isDocument : document text = .ok value) :
    ∃ written, Json.parse text = .ok written ∧ value = written.canonical := by
  rw [document] at isDocument
  cases parsed : Json.parse text with
  | error fault =>
      rw [parsed] at isDocument
      cases isDocument
  | ok written =>
      rw [parsed] at isDocument
      cases isDocument
      exact ⟨written, rfl, rfl⟩

theorem distinct_of_document {text : List Char} {value : Json}
    (written : document text = .ok value) : value.Distinct := by
  obtain ⟨parsed, -, rfl⟩ := exists_parse_of_document written
  exact parsed.distinct_canonical

/-- What a pointer selects in a text is loaded, and if there is no such thing that is reported. -/
theorem load_encode {text : List Char} {value : Json} (pointer : String)
    (written : document text = .ok value) :
    load (some pointer) (.ok (Utf8.encode text)) =
      match select? pointer value with
      | some selected => (Load.ofJson selected).mapError .load
      | none => .error (.nowhere pointer) := by
  have decoded : Utf8.decode (Utf8.encode text) = .ok text := Utf8.decode_eq_ok_iff.mpr rfl
  change loadSelected pointer _ = _
  rw [loadSelected, Load.decode, decoded]
  change ((document text).mapError Failure.load >>= _) = _
  rw [written]
  rfl

/-- Let a text write a document. If tokens lead in it to a value, the pointer that writes the tokens
loads this value: the same node, or the same words for what is wrong. If they lead nowhere, the
pointer is reported, whatever the document is. -/
theorem load_written_pointer {text : List Char} {value : Json}
    (written : document text = .ok value) (tokens : Json.Pointer) :
    (∀ selected, Reaches tokens value selected →
      (load (some tokens.write) (.ok (Utf8.encode text))).mapError Failure.display =
        (Load.ofJson selected).mapError LoadError.display) ∧
    ((∀ selected, ¬ Reaches tokens value selected) →
      (load (some tokens.write) (.ok (Utf8.encode text))).mapError Failure.display =
        .error ("error[AU0001]: no node at JSON pointer `" ++ tokens.write ++ "`")) := by
  have distinct := distinct_of_document written
  have select : select? tokens.write value = tokens.resolve? value := by
    rw [select?, parse?_write]
    rfl
  rw [load_encode _ written, select]
  constructor
  · intro selected reaches
    rw [(resolve?_eq_some_iff distinct).mpr reaches]
    dsimp only
    cases Load.ofJson selected <;> rfl
  · intro nowhere
    have nothing : tokens.resolve? value = none := by
      rw [Option.eq_none_iff_forall_ne_some]
      exact fun selected found => nowhere selected ((resolve?_eq_some_iff distinct).mp found)
    rw [nothing]
    rfl

/-- The document is no node. One pointer goes through its only key, which has a slash and a tilde
in front of a digit, to a node; one ends at a value that is no node; and one has a token that would
be an index but for its leading zero. -/
theorem load_written_pointer_escaped :
    let document : Json :=
      .object [("a/b~1", .array [.null, .object [("type", .string "Super")]])]
    let load (pointer : String) : Except String Node :=
      (load (some pointer) (.ok (Utf8.encode (Json.compact document)))).mapError Failure.display
    load "/a~1b~01/1" = .ok (.make .super ()) ∧
    load "/a~1b~01/0" = .error ("error[EJ0001]: input is not an ESTree node: " ++
      "invalid type: null, expected internally tagged enum Node") ∧
    load "/a~1b~01/01" = .error "error[AU0001]: no node at JSON pointer `/a~1b~01/01`" := by
  intro document load
  have written : Command.document (Json.compact document) = .ok document := by cbv
  have list : LeadsBy "a/b~1" document (.array [.null, .object [("type", .string "Super")]]) :=
    .member (by simp)
  have node : Reaches ["a/b~1", "1"] document (.object [("type", .string "Super")]) :=
    .there list (.there (@LeadsBy.item _ 1 _ rfl) (.here _))
  have null : Reaches ["a/b~1", "0"] document .null :=
    .there list (.there (@LeadsBy.item _ 0 _ rfl) (.here _))
  have nowhere : ∀ selected, ¬ Reaches ["a/b~1", "01"] document selected := by
    intro selected reaches
    have found := (resolve?_eq_some_iff (distinct_of_document written)).mpr reaches
    cases found
  exact ⟨(load_written_pointer written ["a/b~1", "1"]).1 _ node,
    (load_written_pointer written ["a/b~1", "0"]).1 _ null,
    (load_written_pointer written ["a/b~1", "01"]).2 nowhere⟩

end Command

end TreeQuery
