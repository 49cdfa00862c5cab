import ProtoTypings.Proofs.FieldConversion

set_option autoImplicit false
set_option relaxedAutoImplicit false

/-!
The fields of a message are converted one after the other and share its oneofs, so that a field may
mark a oneof after others in it have been converted. Here this loop is given in closed form: it
settles on the oneofs that the fields together mark, and every field is converted as if they had
been marked from the start. The loop fails where the first field fails, and with the same fault.
-/

namespace ProtoTypings.Schema

/-- A field that makes the oneof at an index synthetic. -/
def marks (index : Nat) (field : Descriptor.Field) : Bool :=
  field.proto3Optional && decide (field.oneofIndex = some (index : Int))

/-- The oneofs of a message, with the marks of all its fields. -/
def oneofsOf (names : List Text) (fields : List Descriptor.Field) : List Oneof :=
  names.zipIdx.map fun (name, index) => ⟨name, fields.any (marks index)⟩

def fieldsOf (locations : List Descriptor.Location) (path : List Int) (oneofs : List Oneof)
    (findEntry : Text → Option Descriptor.Message) (raws : List Descriptor.Field) :
    Except Fault (List Field) :=
  raws.zipIdx.mapM (fieldAt locations path oneofs findEntry)

theorem length_oneofsOf (names : List Text) (fields : List Descriptor.Field) :
    (oneofsOf names fields).length = names.length := by
  rw [oneofsOf, List.length_map, List.length_zipIdx]

theorem getElem?_oneofsOf (names : List Text) (fields : List Descriptor.Field) (index : Nat) :
    (oneofsOf names fields)[index]? =
      names[index]?.map fun name => ⟨name, fields.any (marks index)⟩ := by
  rw [oneofsOf, List.getElem?_map, List.getElem?_zipIdx, Option.map_map]
  simp only [Nat.zero_add]
  rfl

private theorem oneofsOf_nil (names : List Text) :
    oneofsOf names [] = names.map fun name => { name } := by
  apply List.ext_getElem?
  intro index
  rw [getElem?_oneofsOf, List.getElem?_map]
  rfl

private theorem oneofOf_of_length_eq {oneofs others : List Oneof}
    (length : others.length = oneofs.length) (raw : Descriptor.Field) :
    oneofOf others raw = (oneofOf oneofs raw).map fun _ => raw.oneofIndex.bind (at? others) := by
  rw [oneofOf, oneofOf]
  cases raw.oneofIndex with
  | none => rfl
  | some index =>
    have alike : (∃ oneof, at? others index = some oneof) ↔
        ∃ oneof, at? oneofs index = some oneof := by
      rw [exists_at?_iff, exists_at?_iff, length]
    dsimp only [Option.bind_some]
    cases found : at? oneofs index with
    | none =>
      rw [found] at alike
      have missed : at? others index = none :=
        Option.eq_none_iff_forall_ne_some.mpr fun oneof other => by
          simpa using alike.mp ⟨oneof, other⟩
      rw [missed, length]
      rfl
    | some oneof =>
      obtain ⟨other, otherFound⟩ := alike.mpr ⟨oneof, found⟩
      rw [otherFound]
      rfl

private theorem fieldAt_of_length_eq {oneofs others : List Oneof}
    (length : others.length = oneofs.length) (locations : List Descriptor.Location)
    (path : List Int) (findEntry : Text → Option Descriptor.Message)
    (placed : Descriptor.Field × Nat) :
    fieldAt locations path others findEntry placed =
      (fieldAt locations path oneofs findEntry placed).map
        (·.inOneof (placed.1.oneofIndex.bind (at? others))) := by
  obtain ⟨raw, place⟩ := placed
  rw [fieldAt, fieldAt, Field.ofDescriptor_eq, Field.ofDescriptor_eq,
    oneofOf_of_length_eq length]
  cases oneofOf oneofs raw with
  | error fault => rfl
  | ok oneof =>
    dsimp only [Except.map, Except.bind]
    cases entryOf? findEntry raw with
    | none => rfl
    | some entry =>
      dsimp only
      cases MapEntry.ofDescriptor entry <;> rfl

private theorem proto3Optional_of_fieldAt {locations : List Descriptor.Location} {path : List Int}
    {oneofs : List Oneof} {findEntry : Text → Option Descriptor.Message} {raw : Descriptor.Field}
    {place : Nat} {field : Field}
    (converted : fieldAt locations path oneofs findEntry (raw, place) = .ok field) :
    field.proto3Optional = raw.proto3Optional := by
  obtain ⟨oneof, -, ⟨-, rfl⟩ | ⟨entry, map, -, -, rfl⟩⟩ :=
    Field.ofDescriptor_eq_ok_iff.mp (Result.located_eq_ok.mp converted)
  · rfl
  · rfl

namespace FieldDraft

private theorem getElem?_oneofs_add (draft : FieldDraft) (field : Field) (index : Option Int)
    (n : Nat) :
    (draft.add field index).oneofs[n]? = draft.oneofs[n]?.map fun oneof =>
      { oneof with
        synthetic := oneof.synthetic ||
          (field.proto3Optional && decide (index = some (n : Int))) } := by
  rw [add]
  cases field.proto3Optional with
  | false => simp
  | true =>
    rcases index with _ | m | m
    · simp
    · rw [if_pos rfl, Option.elim_some, markSynthetic, List.getElem?_modify]
      by_cases here : m = n
      · simp [here]
      · have apart : (m : Int) ≠ n := by omega
        simp [here, apart]
    · simp [markSynthetic]

/-- Step: the marks of the fields so far become those of one field more. -/
private theorem add_eq {names : List Text} {done : List Descriptor.Field}
    {drafted : List (Field × Option Int)} {raw : Descriptor.Field} {field : Field}
    (optional : field.proto3Optional = raw.proto3Optional) :
    add ⟨oneofsOf names done, drafted⟩ field raw.oneofIndex =
      ⟨oneofsOf names (done ++ [raw]), drafted ++ [(field, raw.oneofIndex)]⟩ := by
  have oneofs : (add ⟨oneofsOf names done, drafted⟩ field raw.oneofIndex).oneofs =
      oneofsOf names (done ++ [raw]) := by
    apply List.ext_getElem?
    intro n
    rw [getElem?_oneofs_add, optional, getElem?_oneofsOf, getElem?_oneofsOf, Option.map_map]
    simp only [List.any_append, List.any_cons, List.any_nil, Bool.or_false]
    rfl
  exact congrArg (FieldDraft.mk · _) oneofs

/-- Run: from any draft that has the marks of the fields before, the loop ends with the marks of
all fields, and with the fields that these oneofs give. -/
private theorem foldlM_convert (locations : List Descriptor.Location) (path : List Int)
    (findEntry : Text → Option Descriptor.Message) (names : List Text)
    (done rest : List Descriptor.Field) (place : Nat) (drafted : List (Field × Option Int)) :
    ((rest.zipIdx place).foldlM (convert locations path findEntry)
        ⟨oneofsOf names done, drafted⟩).map (fun draft => (draft.oneofs, draft.settled)) =
      ((rest.zipIdx place).mapM
          (fieldAt locations path (oneofsOf names (done ++ rest)) findEntry)).map fun fields =>
        (oneofsOf names (done ++ rest),
          (FieldDraft.mk (oneofsOf names (done ++ rest)) drafted).settled ++ fields) := by
  induction rest generalizing done place drafted with
  | nil => simp [Except.map, pure, Except.pure]
  | cons raw rest ih =>
    have marksAll : done ++ raw :: rest = done ++ [raw] ++ rest := by simp
    have length : (oneofsOf names (done ++ raw :: rest)).length = (oneofsOf names done).length := by
      rw [length_oneofsOf, length_oneofsOf]
    rw [List.zipIdx_cons, List.foldlM_cons, List.mapM_cons, fieldAt_of_length_eq length, convert]
    cases converted : fieldAt locations path (oneofsOf names done) findEntry (raw, place) with
    | error fault => rfl
    | ok field =>
      change ((rest.zipIdx (place + 1)).foldlM (convert locations path findEntry)
        (add ⟨oneofsOf names done, drafted⟩ field raw.oneofIndex)).map _ = _
      rw [add_eq (proto3Optional_of_fieldAt converted), ih, ← marksAll]
      dsimp only [Except.map, bind, Except.bind]
      cases (rest.zipIdx (place + 1)).mapM
        (fieldAt locations path (oneofsOf names (done ++ raw :: rest)) findEntry) with
      | error fault => rfl
      | ok fields => simp [settled, pure, Except.pure]

end FieldDraft

/-- The loop over the fields of a message settles on the oneofs that all fields together mark. -/
theorem oneofsAndFields_eq (locations : List Descriptor.Location) (path : List Int)
    (names : List Text) (findEntry : Text → Option Descriptor.Message)
    (raws : List Descriptor.Field) :
    oneofsAndFields locations path names findEntry raws =
      (fieldsOf locations path (oneofsOf names raws) findEntry raws).map
        (oneofsOf names raws, ·) := by
  have run := FieldDraft.foldlM_convert locations path findEntry names [] raws 0 []
  rw [oneofsOf_nil] at run
  exact run

end ProtoTypings.Schema
