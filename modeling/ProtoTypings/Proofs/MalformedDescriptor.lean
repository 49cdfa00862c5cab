import ProtoTypings.Proofs.Conversion
import ProtoTypings.Proofs.FieldConversion

set_option autoImplicit false
set_option relaxedAutoImplicit false

/-!
Which descriptors are refused: those without a name, and those where some message that is converted
as such has an index of a oneof that is not there, an extension in a oneof, or a field that stands
for a map entry that cannot be folded. Nothing else is a reason, in particular neither the types of
fields nor what is in map entries that no field stands for.
-/

namespace ProtoTypings

namespace Descriptor

/-- The messages of a forest that are converted as such, with their full names: the roots, and the
messages nested in one of these, map entries apart. -/
inductive Reached (scope : Text) (roots : List Message) : Text → Message → Prop where
  | root {message : Message} (member : message ∈ roots) :
      Reached scope roots (scope ++ Text.dot :: message.name) message
  | nested {fullName : Text} {outer inner : Message} (reached : Reached scope roots fullName outer)
      (member : inner ∈ outer.nested) (kept : inner.mapEntry = false) :
      Reached scope roots (fullName ++ Text.dot :: inner.name) inner

private theorem reached_iff {scope fullName : Text} {roots : List Message} {message : Message} :
    Reached scope roots fullName message ↔ ∃ root ∈ roots,
      (fullName = scope ++ Text.dot :: root.name ∧ message = root) ∨
        Reached (scope ++ Text.dot :: root.name) root.kept fullName message := by
  -- `Reached` adds messages at the far end, conversion takes them from the roots down
  constructor
  · intro reached
    induction reached with
    | @root root member => exact ⟨root, member, Or.inl ⟨rfl, rfl⟩⟩
    | nested _ member kept ih =>
      obtain ⟨root, rootMember, ⟨rfl, rfl⟩ | inside⟩ := ih
      · exact ⟨_, rootMember, Or.inr (.root (Message.mem_kept.mpr ⟨member, kept⟩))⟩
      · exact ⟨root, rootMember, Or.inr (.nested inside member kept)⟩
  · rintro ⟨root, rootMember, ⟨rfl, rfl⟩ | inside⟩
    · exact .root rootMember
    · induction inside with
      | root member =>
        obtain ⟨inner, kept⟩ := Message.mem_kept.mp member
        exact .nested (.root rootMember) inner kept
      | nested _ member kept ih => exact .nested ih member kept

private theorem forall_reached_iff {scope : Text} {roots : List Message}
    {P : Text → Message → Prop} :
    (∀ fullName message, Reached scope roots fullName message → P fullName message) ↔
      ∀ root ∈ roots, P (scope ++ Text.dot :: root.name) root ∧
        ∀ fullName message, Reached (scope ++ Text.dot :: root.name) root.kept fullName message →
          P fullName message := by
  constructor
  · intro all root member
    refine ⟨all _ _ (.root member), fun fullName message inside => all _ _ ?_⟩
    exact reached_iff.mpr ⟨root, member, Or.inr inside⟩
  · intro each fullName message reached
    obtain ⟨root, member, ⟨rfl, rfl⟩ | inside⟩ := reached_iff.mp reached
    · exact (each message member).1
    · exact (each root member).2 fullName message inside

def File.Reached (file : File) : Text → Message → Prop :=
  Descriptor.Reached (Schema.packageScope file.package) file.messages

/-- A field whose index of a oneof, where it has one, is that of one of `count` oneofs. -/
def Field.InOneofs (count : Nat) (field : Field) : Prop :=
  ∀ index, field.oneofIndex = some index → 0 ≤ index ∧ index < count

/-- A field of a message with the given full name stands for a map entry of it: the field is
repeated (label 3), holds messages (type 11) and names the entry, the last one of that name. -/
structure Message.StandsFor (fullName : Text) (message : Message) (field : Field)
    (entry : Message) : Prop where
  member : field ∈ message.fields
  repeated : field.label = 3
  holds : field.type = some 11
  named : IsLast (Schema.IsEntryOf fullName field.typeName) message.nested entry

/-- A map entry that cannot be folded: one of its fields is in a oneof, or it has no field with the
number 1 or none with the number 2. -/
def Message.Unfoldable (entry : Message) : Prop :=
  (∃ field ∈ entry.fields, field.oneofIndex ≠ none) ∨
    (∀ field ∈ entry.fields, field.number ≠ 1) ∨ ∀ field ∈ entry.fields, field.number ≠ 2

/-- Descriptors with an index of a oneof that is not there. Extensions have no oneofs at all. -/
inductive File.Misindexed (file : File) : Prop where
  | field {fullName : Text} {message : Message} {field : Field}
      (reached : file.Reached fullName message) (member : field ∈ message.fields)
      (outside : ¬field.InOneofs message.oneofs.length)
  | extension {fullName : Text} {message : Message} {extension : Field}
      (reached : file.Reached fullName message) (member : extension ∈ message.extensions)
      (set : extension.oneofIndex ≠ none)
  | fileExtension {extension : Field} (member : extension ∈ file.extensions)
      (set : extension.oneofIndex ≠ none)

/-- Descriptors that cannot be converted. -/
inductive File.Malformed (file : File) : Prop where
  | unnamed (unnamed : file.name = [])
  | misindexed (misindexed : file.Misindexed)
  | mapEntry {fullName : Text} {message entry : Message} {field : Field}
      (reached : file.Reached fullName message)
      (standsFor : message.StandsFor fullName field entry) (unfoldable : entry.Unfoldable)

structure Message.Sound (fullName : Text) (message : Message) : Prop where
  fields : ∀ field ∈ message.fields, field.InOneofs message.oneofs.length
  entries : ∀ field entry, message.StandsFor fullName field entry → ¬entry.Unfoldable
  extensions : ∀ extension ∈ message.extensions, extension.oneofIndex = none

private theorem Message.nested_induction {P : Message → Prop}
    (step : ∀ message : Message, (∀ nested ∈ message.nested, P nested) → P message)
    (message : Message) : P message :=
  step message fun nested member =>
    have smaller : sizeOf nested < sizeOf message := by
      have inList := List.sizeOf_lt_of_mem member
      cases message
      simp only [Message.mk.sizeOf_spec] at inList ⊢
      omega
    nested_induction step nested
termination_by sizeOf message
decreasing_by exact smaller

private theorem File.not_malformed_iff {file : File} :
    ¬file.Malformed ↔ file.name ≠ [] ∧
      (∀ fullName message, file.Reached fullName message → message.Sound fullName) ∧
      ∀ extension ∈ file.extensions, extension.oneofIndex = none := by
  constructor
  · intro wellFormed
    refine ⟨fun unnamed => wellFormed (.unnamed unnamed), fun fullName message reached => ?_,
      fun extension member => ?_⟩
    · refine ⟨fun field member => ?_, fun field entry standsFor unfoldable => ?_,
        fun extension member => ?_⟩
      · by_contra outside
        exact wellFormed (.misindexed (.field reached member outside))
      · exact wellFormed (.mapEntry reached standsFor unfoldable)
      · by_contra set
        exact wellFormed (.misindexed (.extension reached member set))
    · by_contra set
      exact wellFormed (.misindexed (.fileExtension member set))
  · rintro ⟨named, sound, bare⟩ malformed
    cases malformed with
    | unnamed unnamed => exact named unnamed
    | misindexed misindexed =>
      cases misindexed with
      | field reached member outside => exact outside ((sound _ _ reached).fields _ member)
      | extension reached member set => exact set ((sound _ _ reached).extensions _ member)
      | fileExtension member set => exact set (bare _ member)
    | mapEntry reached standsFor unfoldable =>
      exact (sound _ _ reached).entries _ _ standsFor unfoldable

end Descriptor

namespace Schema

open Descriptor (Reached)

private theorem MapEntry.exists_ofDescriptor_iff {entry : Descriptor.Message} :
    (∃ map, MapEntry.ofDescriptor entry = .ok map) ↔ ¬entry.Unfoldable := by
  have parts : (∃ map, MapEntry.ofDescriptor entry = .ok map) ↔
      (∀ raw ∈ entry.fields, raw.oneofIndex = none) ∧
        (∃ key ∈ entry.fields, key.number = 1) ∧ ∃ value ∈ entry.fields, value.number = 2 := by
    simp only [MapEntry.ofDescriptor_eq_ok, ← exists_isLast_iff]
    constructor
    · rintro ⟨map, bare, key, value, isKey, isValue, -⟩
      exact ⟨bare, ⟨key, isKey⟩, ⟨value, isValue⟩⟩
    · rintro ⟨bare, ⟨key, isKey⟩, ⟨value, isValue⟩⟩
      exact ⟨_, bare, key, value, isKey, isValue, rfl⟩
  rw [parts, Descriptor.Message.Unfoldable]
  push Not
  rfl

private theorem Field.exists_ofDescriptor_iff {oneofs : List Oneof}
    {findEntry : Text → Option Descriptor.Message} {comments : Text} {raw : Descriptor.Field} :
    (∃ field, Field.ofDescriptor oneofs findEntry comments raw = .ok field) ↔
      raw.InOneofs oneofs.length ∧
        ∀ entry, entryOf? findEntry raw = some entry → ¬entry.Unfoldable := by
  simp only [Descriptor.Field.InOneofs, ← exists_oneofOf_iff, ← MapEntry.exists_ofDescriptor_iff,
    Field.ofDescriptor_eq_ok_iff]
  constructor
  · rintro ⟨field, oneof, inOneof, ⟨absent, -⟩ | ⟨entry, map, found, folds, -⟩⟩
    · refine ⟨⟨oneof, inOneof⟩, fun entry found => ?_⟩
      rw [absent] at found
      cases found
    · refine ⟨⟨oneof, inOneof⟩, fun other foundOther => ?_⟩
      obtain rfl := Option.some.inj (found.symm.trans foundOther)
      exact ⟨map, folds⟩
  · rintro ⟨⟨oneof, inOneof⟩, folds⟩
    cases found : entryOf? findEntry raw with
    | none => exact ⟨_, oneof, inOneof, Or.inl ⟨rfl, rfl⟩⟩
    | some entry =>
      obtain ⟨map, folded⟩ := folds entry found
      exact ⟨_, oneof, inOneof, Or.inr ⟨entry, map, rfl, folded, rfl⟩⟩

private theorem exists_fieldsOf_iff {locations : List Descriptor.Location} {path : List Int}
    {fullName : Text} {raw : Descriptor.Message} :
    (∃ fields, fieldsOf locations path (oneofsOf raw.oneofs raw.fields)
      (findMapEntry fullName raw.nested) raw.fields = .ok fields) ↔
      (∀ field ∈ raw.fields, field.InOneofs raw.oneofs.length) ∧
        ∀ field entry, raw.StandsFor fullName field entry → ¬entry.Unfoldable := by
  have each : (∃ fields, fieldsOf locations path (oneofsOf raw.oneofs raw.fields)
      (findMapEntry fullName raw.nested) raw.fields = .ok fields) ↔
      ∀ field ∈ raw.fields, field.InOneofs raw.oneofs.length ∧
        ∀ entry, entryOf? (findMapEntry fullName raw.nested) field = some entry →
          ¬entry.Unfoldable := by
    refine Result.exists_mapM_eq_ok_iff (List.zipIdx_map_fst 0 raw.fields) fun placed _ => ?_
    simp only [fieldAt, Result.located_eq_ok]
    rw [Field.exists_ofDescriptor_iff, length_oneofsOf]
  rw [each]
  constructor
  · intro all
    refine ⟨fun field member => (all field member).1, fun field entry standsFor => ?_⟩
    have found := findMapEntry_eq_some_iff.mpr standsFor.named
    exact (all field standsFor.member).2 entry
      (entryOf?_eq_some_iff.mpr ⟨standsFor.repeated, standsFor.holds, found⟩)
  · rintro ⟨inOneofs, entries⟩ field member
    refine ⟨inOneofs field member, fun entry found => ?_⟩
    obtain ⟨repeated, holds, found⟩ := entryOf?_eq_some_iff.mp found
    exact entries field entry ⟨member, repeated, holds, findMapEntry_eq_some_iff.mp found⟩

private theorem exists_extensionsOf_iff {locations : List Descriptor.Location} {path : List Int}
    {list : Nat} {raws : List Descriptor.Field} :
    (∃ extensions, extensionsOf locations path list raws = .ok extensions) ↔
      ∀ extension ∈ raws, extension.oneofIndex = none := by
  refine Result.exists_mapM_eq_ok_iff (List.zipIdx_map_fst 0 raws) fun placed _ => ?_
  simp only [Result.located_eq_ok, Field.plain_nil_eq_ok, exists_and_left, exists_eq, and_true]

private theorem Message.exists_ofDescriptor_iff {locations : List Descriptor.Location}
    {scope : Text} {path : List Int} {raw : Descriptor.Message} :
    (∃ message, Message.ofDescriptor locations scope path raw = .ok message) ↔
      raw.Sound (scope ++ Text.dot :: raw.name) ∧
        ∀ fullName message, Reached (scope ++ Text.dot :: raw.name) raw.kept fullName message →
          message.Sound fullName := by
  -- nested messages have another scope and another place, so both vary with the message
  induction raw using Descriptor.Message.nested_induction generalizing scope path with
  | step raw ih =>
    have nested : (∃ messages, nestedOf locations (scope ++ Text.dot :: raw.name) path 0
        raw.nested = .ok messages) ↔
        ∀ fullName message, Reached (scope ++ Text.dot :: raw.name) raw.kept fullName message →
          message.Sound fullName := by
      rw [nestedOf_eq_mapM, Descriptor.forall_reached_iff]
      refine Result.exists_mapM_eq_ok_iff (map_fst_placed_kept raw) fun placed member => ?_
      exact ih placed.1 (List.fst_mem_of_mem_zipIdx (List.mem_filter.mp member).1)
    rw [← nested]
    simp only [Message.ofDescriptor_eq_ok_iff]
    constructor
    · rintro ⟨_, fields, fieldsMade, messages, nestedMade, extensions, extensionsMade, -⟩
      obtain ⟨inOneofs, entries⟩ := exists_fieldsOf_iff.mp ⟨fields, fieldsMade⟩
      have bare := exists_extensionsOf_iff.mp ⟨extensions, extensionsMade⟩
      exact ⟨⟨inOneofs, entries, bare⟩, messages, nestedMade⟩
    · rintro ⟨sound, messages, nestedMade⟩
      obtain ⟨fields, fieldsMade⟩ := exists_fieldsOf_iff.mpr ⟨sound.fields, sound.entries⟩
      obtain ⟨extensions, extensionsMade⟩ := exists_extensionsOf_iff.mpr sound.extensions
      exact ⟨_, fields, fieldsMade, messages, nestedMade, extensions, extensionsMade, rfl⟩

private theorem File.exists_ofDescriptor_iff {raw : Descriptor.File} :
    (∃ file, File.ofDescriptor raw = .ok file) ↔ ¬raw.Malformed := by
  have messages : (∃ messages, (raw.messages.zipIdx.mapM fun placed =>
      Message.ofDescriptor raw.locations (packageScope raw.package)
        (childPath [] ListNumber.fileMessages placed.2) placed.1) = .ok messages) ↔
      ∀ fullName message, raw.Reached fullName message → message.Sound fullName := by
    rw [Descriptor.File.Reached, Descriptor.forall_reached_iff]
    refine Result.exists_mapM_eq_ok_iff (List.zipIdx_map_fst 0 raw.messages) fun placed _ => ?_
    exact Message.exists_ofDescriptor_iff
  rw [Descriptor.File.not_malformed_iff, ← messages]
  simp only [File.ofDescriptor_eq_ok_iff]
  constructor
  · rintro ⟨_, named, messages, made, extensions, extensionsMade, -⟩
    exact ⟨named, ⟨messages, made⟩, exists_extensionsOf_iff.mp ⟨extensions, extensionsMade⟩⟩
  · rintro ⟨named, ⟨messages, made⟩, bare⟩
    obtain ⟨extensions, extensionsMade⟩ := exists_extensionsOf_iff.mpr bare
    exact ⟨_, named, messages, made, extensions, extensionsMade, rfl⟩

/-- Conversion fails exactly on malformed descriptors. If every field of a reached message has an
unknown type or names only what can be folded, the name and the indices of oneofs are the only
reasons left, whatever other map entries there are. -/
theorem ofDescriptor_fails_iff (raw : Descriptor.File) :
    ((∃ fault, File.ofDescriptor raw = .error fault) ↔ raw.Malformed) ∧
    ((∀ fullName message, raw.Reached fullName message → ∀ field ∈ message.fields,
      (∀ type, field.type = some type → FieldKind.ofType type = .invalid) ∨
        ∀ entry, IsLast (IsEntryOf fullName field.typeName) message.nested entry →
          ¬entry.Unfoldable) →
      ((∃ fault, File.ofDescriptor raw = .error fault) ↔ raw.name = [] ∨ raw.Misindexed)) := by
  have fails_iff : (∃ fault, File.ofDescriptor raw = .error fault) ↔ raw.Malformed := by
    rw [Result.exists_eq_error_iff, File.exists_ofDescriptor_iff, not_not]
  refine ⟨fails_iff, fun harmless => fails_iff.trans ⟨fun malformed => ?_, fun reason => ?_⟩⟩
  · cases malformed with
    | unnamed unnamed => exact Or.inl unnamed
    | misindexed misindexed => exact Or.inr misindexed
    | mapEntry reached standsFor unfoldable =>
      rcases harmless _ _ reached _ standsFor.member with unknown | foldable
      · exact absurd (unknown 11 standsFor.holds) (by decide)
      · exact absurd unfoldable (foldable _ standsFor.named)
  · exact reason.elim .unnamed .misindexed

/-- A message whose field names a map entry that comes twice, the second time without fields. -/
def shelf (type : Int) : Descriptor.Message where
  name := "Shelf"
  fields := [
    { name := "books", number := 1, label := 3, type := some type,
      typeName := ".Shelf.BooksEntry" }]
  nested := [
    { name := "BooksEntry", mapEntry := true, fields := [
      { name := "key", number := 1, type := some 9 },
      { name := "value", number := 2, type := some 5 }] },
    { name := "BooksEntry", mapEntry := true }]

def shelfDescriptor (type : Int) : Descriptor.File where
  name := "shelf.proto"
  messages := [shelf type]

private theorem reached_shelfDescriptor {type : Int} {fullName : Text}
    {message : Descriptor.Message}
    (reached : (shelfDescriptor type).Reached fullName message) : message = shelf type := by
  obtain ⟨root, member, ⟨-, rfl⟩ | inside⟩ := Descriptor.reached_iff.mp reached
  · exact List.mem_singleton.mp member
  · obtain rfl := List.mem_singleton.mp member
    obtain ⟨inner, impossible, -⟩ := Descriptor.reached_iff.mp inside
    cases impossible

/-- The later entry makes a field of messages fail, but not one of an unknown type. -/
theorem ofDescriptor_fails_iff_shelf :
    (shelfDescriptor 11).Malformed ∧
    (∃ fault, File.ofDescriptor (shelfDescriptor 11) = .error fault) ∧
    FieldKind.ofType 99 = .invalid ∧
    ¬∃ fault, File.ofDescriptor (shelfDescriptor 99) = .error fault := by
  have reached : (shelfDescriptor 11).Reached ".Shelf" (shelf 11) :=
    .root (List.mem_singleton.mpr rfl)
  have standsFor : (shelf 11).StandsFor ".Shelf" _ { name := "BooksEntry", mapEntry := true } :=
    ⟨List.mem_singleton.mpr rfl, rfl, rfl, [_], [], rfl, ⟨rfl, rfl⟩, List.forall_mem_nil _⟩
  have malformed : (shelfDescriptor 11).Malformed :=
    .mapEntry reached standsFor (Or.inr (Or.inl (List.forall_mem_nil _)))
  refine ⟨malformed, (ofDescriptor_fails_iff (shelfDescriptor 11)).1.mpr malformed, rfl, ?_⟩
  rw [(ofDescriptor_fails_iff (shelfDescriptor 99)).2]
  · rintro (unnamed | ⟨reached, member, outside⟩ | ⟨reached, member, -⟩ | ⟨member, -⟩)
    · cases unnamed
    · obtain rfl := reached_shelfDescriptor reached
      obtain rfl := List.mem_singleton.mp member
      refine outside fun index set => ?_
      cases set
    · obtain rfl := reached_shelfDescriptor reached
      cases member
    · cases member
  · intro fullName message reached field member
    obtain rfl := reached_shelfDescriptor reached
    obtain rfl := List.mem_singleton.mp member
    refine Or.inl fun type same => ?_
    obtain rfl := Option.some.inj same
    rfl

end Schema

end ProtoTypings
