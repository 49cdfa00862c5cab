import Mathlib.Data.List.Perm.Basic
import ProtoTypings.Proofs.MalformedDescriptor
import ProtoTypings.Proofs.MapFolding

set_option autoImplicit false
set_option relaxedAutoImplicit false

/-!
Which oneofs a message has, which fields are in them, and which of them only mark an optional field.
All of this is settled by the descriptor as a whole: a field that makes its oneof synthetic does so
for the fields before it as well, and another order of the fields changes nothing.
-/

namespace ProtoTypings.Schema

/-- A oneof as a message's descriptor declares it at an index. It is synthetic exactly if some field
of the message is in it and is a proto3 optional field. -/
structure Oneof.DeclaredAt (raw : Descriptor.Message) (index : Nat) (oneof : Oneof) : Prop where
  name : raw.oneofs[index]? = some oneof.name
  synthetic_iff : oneof.synthetic = true ↔
    ∃ field ∈ raw.fields, field.oneofIndex = some (index : Int) ∧ field.proto3Optional = true

/-- A field that is in a oneof of its message, or in none, as its descriptor says. The oneof is the
one that the message has, with the same mark. -/
structure Field.MemberAs (raw : Descriptor.Message) (oneofs : List Oneof)
    (rawField : Descriptor.Field) (field : Field) : Prop where
  name : field.name = rawField.name
  number : field.number = rawField.number
  proto3Optional : field.proto3Optional = rawField.proto3Optional
  isSome_eq : field.oneof.isSome = rawField.oneofIndex.isSome
  oneof : ∀ index, rawField.oneofIndex = some index →
    ∃ n : Nat, index = n ∧ n < oneofs.length ∧ field.oneof = oneofs[n]?
  inRealOneof_iff : field.inRealOneof = true ↔ ∃ index, rawField.oneofIndex = some index ∧
    ∀ other ∈ raw.fields, other.proto3Optional = true → other.oneofIndex ≠ some index

/-- A message with the oneofs that its descriptor declares, and with its fields in them. -/
structure Message.OneofsFrom (raw : Descriptor.Message) (message : Message) : Prop where
  name : message.name = raw.name
  length : message.oneofs.length = raw.oneofs.length
  oneofs : ∀ index oneof, message.oneofs[index]? = some oneof →
    Oneof.DeclaredAt raw index oneof
  fields : List.Forall₂ (Field.MemberAs raw message.oneofs) raw.fields message.fields

private theorem any_marks_iff {fields : List Descriptor.Field} {index : Nat} :
    fields.any (marks index) = true ↔
      ∃ field ∈ fields, field.oneofIndex = some (index : Int) ∧ field.proto3Optional = true := by
  simp only [List.any_eq_true, marks, Bool.and_eq_true, decide_eq_true_eq, and_comm]

private theorem declaredAt_oneofsOf {raw : Descriptor.Message} {index : Nat} {oneof : Oneof}
    (found : (oneofsOf raw.oneofs raw.fields)[index]? = some oneof) :
    oneof.DeclaredAt raw index := by
  rw [getElem?_oneofsOf] at found
  obtain ⟨name, named, rfl⟩ := Option.map_eq_some_iff.mp found
  exact ⟨named, any_marks_iff⟩

private theorem oneofOf_eq_ok {oneofs : List Oneof} {raw : Descriptor.Field} {oneof : Option Oneof}
    (found : oneofOf oneofs raw = .ok oneof) : raw.oneofIndex = none ∧ oneof = none ∨
      ∃ n : Nat, raw.oneofIndex = some (n : Int) ∧ n < oneofs.length ∧ oneof = oneofs[n]? := by
  rw [oneofOf] at found
  split at found
  · rename_i unset
    exact Or.inl ⟨unset, (Except.ok.inj found).symm⟩
  · rename_i index set
    split at found
    · rename_i member inside
      obtain rfl := Except.ok.inj found
      cases index with
      | ofNat n =>
        obtain ⟨bound, -⟩ := List.getElem?_eq_some_iff.mp inside
        exact Or.inr ⟨n, set, bound, inside.symm⟩
      | negSucc n => cases inside
    · cases found

theorem Field.ofDescriptor_eq_ok {oneofs : List Oneof}
    {findEntry : Text → Option Descriptor.Message} {comments : Text} {raw : Descriptor.Field}
    {field : Field} (converted : Field.ofDescriptor oneofs findEntry comments raw = .ok field) :
    oneofOf oneofs raw = .ok field.oneof ∧ field.name = raw.name ∧ field.number = raw.number ∧
      field.proto3Optional = raw.proto3Optional ∧ field.comments = comments := by
  obtain ⟨oneof, found, ⟨-, rfl⟩ | ⟨entry, map, -, -, rfl⟩⟩ :=
    Field.ofDescriptor_eq_ok_iff.mp converted
  · exact ⟨found, rfl, rfl, rfl, rfl⟩
  · exact ⟨found, rfl, rfl, rfl, rfl⟩

private theorem Field.inRealOneof_of_none {field : Field} (unset : field.oneof = none) :
    field.inRealOneof = false := by
  rw [inRealOneof, unset]

private theorem Field.inRealOneof_of_some {field : Field} {oneof : Oneof}
    (set : field.oneof = some oneof) : field.inRealOneof = !oneof.synthetic := by
  rw [inRealOneof, set]

private theorem Field.memberAs {raw : Descriptor.Message}
    {findEntry : Text → Option Descriptor.Message}
    {comments : Text} {rawField : Descriptor.Field} {field : Field}
    (converted : Field.ofDescriptor (oneofsOf raw.oneofs raw.fields) findEntry comments rawField =
      .ok field) : field.MemberAs raw (oneofsOf raw.oneofs raw.fields) rawField := by
  obtain ⟨found, name, number, proto3Optional, -⟩ := Field.ofDescriptor_eq_ok converted
  rcases oneofOf_eq_ok found with ⟨unset, none⟩ | ⟨n, set, bound, oneof⟩
  · refine ⟨name, number, proto3Optional, ?_, ?_, ?_⟩
    · rw [none, unset]
      rfl
    · intro index set
      cases unset.symm.trans set
    · refine iff_of_false (by simp [inRealOneof_of_none none]) ?_
      rintro ⟨index, set, -⟩
      cases unset.symm.trans set
  · have here := List.getElem?_eq_getElem bound
    have declared := declaredAt_oneofsOf here
    refine ⟨name, number, proto3Optional, ?_, ?_, ?_⟩
    · rw [oneof, here, set]
      rfl
    · intro index same
      obtain rfl := Option.some.inj (set.symm.trans same)
      exact ⟨n, rfl, bound, oneof⟩
    · rw [inRealOneof_of_some (oneof.trans here), Bool.not_eq_true', ← Bool.not_eq_true,
        declared.synthetic_iff]
      constructor
      · intro unmarked
        refine ⟨n, set, fun other member optional same => ?_⟩
        exact unmarked ⟨other, member, same, optional⟩
      · rintro ⟨index, same, unmarked⟩ ⟨other, member, marked, optional⟩
        obtain rfl := Option.some.inj (set.symm.trans same)
        exact unmarked other member optional marked

private theorem Message.oneofsFrom {locations : List Descriptor.Location} {raw : Descriptor.Message}
    {message : Message} (made : message.MadeFrom locations raw) : message.OneofsFrom raw := by
  obtain ⟨scope, path, converted⟩ := made
  obtain ⟨fields, fieldsMade, messages, -, extensions, -, rfl⟩ :=
    Message.ofDescriptor_eq_ok_iff.mp converted
  refine ⟨rfl, length_oneofsOf raw.oneofs raw.fields, fun _ _ => declaredAt_oneofsOf, ?_⟩
  exact (forall₂_fieldsOf fieldsMade).imp fun _ _ ⟨_, made⟩ => Field.memberAs made

def Field.membership (field : Field) : Text × Int × Option Oneof :=
  (field.name, field.number, field.oneof)

private theorem Field.MemberAs.membership_eq {raw : Descriptor.Message} {oneofs : List Oneof}
    {rawField : Descriptor.Field} {field : Field} (member : field.MemberAs raw oneofs rawField) :
    field.membership =
      (rawField.name, rawField.number, rawField.oneofIndex.bind (at? oneofs)) := by
  have oneof : field.oneof = rawField.oneofIndex.bind (at? oneofs) := by
    cases set : rawField.oneofIndex with
    | none => exact Option.not_isSome_iff_eq_none.mp (by simp [member.isSome_eq, set])
    | some index =>
      obtain ⟨n, rfl, -, inside⟩ := member.oneof index set
      exact inside
  rw [membership, member.name, member.number, oneof]

namespace Message.OneofsFrom

variable {raw raw' : Descriptor.Message} {message message' : Message}

private theorem map_membership (declares : message.OneofsFrom raw) :
    message.fields.map Field.membership = raw.fields.map fun rawField =>
      (rawField.name, rawField.number, rawField.oneofIndex.bind (at? message.oneofs)) :=
  Result.map_eq_map_iff.mpr (declares.fields.flip.imp fun _ _ member => member.membership_eq)

private theorem oneofs_of_perm (declares : message.OneofsFrom raw)
    (declares' : message'.OneofsFrom raw')
    (names : raw'.oneofs = raw.oneofs) (reordered : raw'.fields.Perm raw.fields) :
    message'.oneofs = message.oneofs := by
  refine List.ext_getElem (by rw [declares.length, declares'.length, names]) ?_
  intro index bound' bound
  have here := declares.oneofs index _ (List.getElem?_eq_getElem bound)
  have here' := declares'.oneofs index _ (List.getElem?_eq_getElem bound')
  have name : message'.oneofs[index].name = message.oneofs[index].name :=
    Option.some.inj (here'.name.symm.trans (names ▸ here.name))
  have synthetic : message'.oneofs[index].synthetic = message.oneofs[index].synthetic := by
    rw [Bool.eq_iff_iff, here.synthetic_iff, here'.synthetic_iff]
    simp only [reordered.mem_iff]
  exact congrArg₂ Oneof.mk name synthetic

private theorem memberships_of_perm (declares : message.OneofsFrom raw)
    (declares' : message'.OneofsFrom raw') (names : raw'.oneofs = raw.oneofs)
    (reordered : raw'.fields.Perm raw.fields) :
    (message'.fields.map Field.membership).Perm (message.fields.map Field.membership) := by
  rw [declares.map_membership, declares'.map_membership,
    oneofs_of_perm declares declares' names reordered]
  exact reordered.map _

end Message.OneofsFrom

/-- Every message of a converted file, at any depth, has the oneofs of its descriptor with the
fields of its descriptor in them. If two messages, in one file or in two, differ only in the order
of their fields, then they have the same oneofs and the same fields in them. -/
theorem oneofs_settled {raw : Descriptor.File} {file : File}
    (converted : File.ofDescriptor raw = .ok file) :
    (∀ position message, file.messageAt? position = some message →
      ∃ origin, raw.keptAt? position = some origin ∧ message.OneofsFrom origin) ∧
    ∀ raw' file', File.ofDescriptor raw' = .ok file' →
      ∀ position message origin position' message' origin',
        file.messageAt? position = some message → raw.keptAt? position = some origin →
        file'.messageAt? position' = some message' → raw'.keptAt? position' = some origin' →
        origin'.oneofs = origin.oneofs → origin'.fields.Perm origin.fields →
          message'.oneofs = message.oneofs ∧
            (message'.fields.map Field.membership).Perm (message.fields.map Field.membership) := by
  have declared {raw : Descriptor.File} {file : File}
      (converted : File.ofDescriptor raw = .ok file) (position : List Nat) (message : Message)
      (found : file.messageAt? position = some message) :
      ∃ origin, raw.keptAt? position = some origin ∧ message.OneofsFrom origin := by
    obtain ⟨origin, foundOrigin, made⟩ := File.madeFrom_at converted found
    exact ⟨origin, foundOrigin, Message.oneofsFrom made⟩
  refine ⟨declared converted, ?_⟩
  intro raw' file' converted' position message origin position' message' origin' found kept found'
    kept' names reordered
  obtain ⟨_, same, declares⟩ := declared converted position message found
  obtain rfl := Option.some.inj (same.symm.trans kept)
  obtain ⟨_, same', declares'⟩ := declared converted' position' message' found'
  obtain rfl := Option.some.inj (same'.symm.trans kept')
  exact ⟨declares.oneofs_of_perm declares' names reordered,
    declares.memberships_of_perm declares' names reordered⟩

/-- A message with a real oneof, and with a field that makes the other oneof synthetic. -/
def survey (fields : List Descriptor.Field) : Descriptor.Message where
  name := "Survey"
  oneofs := (["answer", "_note"] : List String).map Text.ofString
  fields

/-- The last field marks the oneof that the one before it is in, too. -/
def surveyFields : List Descriptor.Field :=
  [{ name := "text", number := 1, type := some 9, oneofIndex := some 0 },
    { name := "total", number := 2, type := some 5 },
    { name := "remark", number := 3, type := some 9, oneofIndex := some 1 },
    { name := "note", number := 4, type := some 9, oneofIndex := some 1, proto3Optional := true }]

/-- The message stands in another one, after a map entry. -/
def surveyDescriptor (fields : List Descriptor.Field) : Descriptor.File where
  name := "survey.proto"
  messages := [{ name := "Poll", nested := [{ name := "Entry", mapEntry := true }, survey fields] }]

theorem oneofs_settled_survey :
    ∃ file message file' message',
      File.ofDescriptor (surveyDescriptor surveyFields) = .ok file ∧
      file.messageAt? [0, 0] = some message ∧
      File.ofDescriptor (surveyDescriptor surveyFields.reverse) = .ok file' ∧
      file'.messageAt? [0, 0] = some message' ∧
      message.fields.map Field.inRealOneof = [true, false, false, false] ∧
      message.OneofsFrom (survey surveyFields) ∧ message'.oneofs = message.oneofs ∧
      (message'.fields.map Field.membership).Perm (message.fields.map Field.membership) := by
  have run : ∃ file, File.ofDescriptor (surveyDescriptor surveyFields) = .ok file ∧
      ∃ message, file.messageAt? [0, 0] = some message ∧
        message.fields.map Field.inRealOneof = [true, false, false, false] :=
    ⟨_, rfl, _, rfl, rfl⟩
  have run' : ∃ file, File.ofDescriptor (surveyDescriptor surveyFields.reverse) = .ok file ∧
      ∃ message, file.messageAt? [0, 0] = some message := ⟨_, rfl, _, rfl⟩
  obtain ⟨file, converted, message, found, real⟩ := run
  obtain ⟨file', converted', message', found'⟩ := run'
  obtain ⟨declared, unordered⟩ := oneofs_settled converted
  obtain ⟨origin, kept, declares⟩ := declared [0, 0] message found
  obtain rfl : survey surveyFields = origin := Option.some.inj kept
  obtain ⟨oneofs, members⟩ := unordered _ file' converted' [0, 0] message _ [0, 0] message'
    (survey surveyFields.reverse) found kept found' rfl rfl (List.reverse_perm surveyFields)
  exact ⟨file, message, file', message', converted, found, converted', found', real, declares,
    oneofs, members⟩

end ProtoTypings.Schema
