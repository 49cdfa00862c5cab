import ProtoTypings.Proofs.Conversion
import ProtoTypings.Proofs.FieldConversion
import ProtoTypings.Proofs.FieldType

set_option autoImplicit false
set_option relaxedAutoImplicit false

/-!
Map entries are folded into the fields that refer to them, at every depth: a field is a map exactly
if its descriptor names a map entry of its own message, and then it has a key and a value that are
no maps themselves. So two of the reasons for which a field can have no type never come up in a
converted file.
-/

namespace ProtoTypings

/-- The message of a descriptor at a position, where map entries do not count. -/
def Descriptor.File.keptAt? (file : Descriptor.File) (position : List Nat) :
    Option Descriptor.Message :=
  nodeAt? Descriptor.Message.kept file.messages position

namespace Schema

structure Field.IsPlain (field : Field) : Prop where
  kind : field.kind ≠ .map
  map : field.map = none
  oneof : field.oneof = none

private theorem Field.isPlain_copy (comments : Text) (raw : Descriptor.Field) :
    (Field.copy none comments raw).IsPlain :=
  ⟨kind_copy_ne_map none comments raw, rfl, rfl⟩

/-- A map whose key and value are the last fields of an entry with the numbers 1 and 2, and are
plain. -/
structure MapEntry.FoldedFrom (entry : Descriptor.Message) (map : MapEntry Field) : Prop where
  key : ∃ raw, IsLast (·.number = 1) entry.fields raw ∧ map.key = some (.copy none [] raw)
  value : ∃ raw, IsLast (·.number = 2) entry.fields raw ∧ map.value = some (.copy none [] raw)
  plain : ∀ field, map.key = some field ∨ map.value = some field → field.IsPlain

private theorem MapEntry.foldedFrom {entry : Descriptor.Message} {map : MapEntry Field}
    (converted : MapEntry.ofDescriptor entry = .ok map) : map.FoldedFrom entry := by
  obtain ⟨-, key, value, isKey, isValue, rfl⟩ := MapEntry.ofDescriptor_eq_ok.mp converted
  refine ⟨⟨key, isKey, rfl⟩, ⟨value, isValue, rfl⟩, ?_⟩
  rintro field (same | same)
  · obtain rfl := Option.some.inj same
    exact Field.isPlain_copy [] key
  · obtain rfl := Option.some.inj same
    exact Field.isPlain_copy [] value

/-- A field of a message with the given full name, as it is made from its descriptor: it is a map
exactly if the descriptor is repeated (label 3), holds messages (type 11) and names a map entry of
the message. -/
structure Field.FoldedFrom (message : Descriptor.Message) (fullName : Text)
    (raw : Descriptor.Field) (field : Field) : Prop where
  name : field.name = raw.name
  number : field.number = raw.number
  kind_iff : field.kind = .map ↔ field.map.isSome
  map_iff : field.map.isSome ↔ raw.label = 3 ∧ raw.type = some 11 ∧
    ∃ entry ∈ message.nested, IsEntryOf fullName raw.typeName entry
  folded : ∀ map, field.map = some map → field.cardinality = .repeated ∧
    ∃ entry, IsLast (IsEntryOf fullName raw.typeName) message.nested entry ∧ map.FoldedFrom entry

private theorem Field.foldedFrom {message : Descriptor.Message} {fullName : Text}
    {oneofs : List Oneof} {comments : Text} {raw : Descriptor.Field} {field : Field}
    (converted : Field.ofDescriptor oneofs (findMapEntry fullName message.nested) comments raw =
      .ok field) : field.FoldedFrom message fullName raw := by
  obtain ⟨oneof, -, ⟨absent, rfl⟩ | ⟨entry, map, found, folds, rfl⟩⟩ :=
    Field.ofDescriptor_eq_ok_iff.mp converted
  · have unnamed : ¬(raw.label = 3 ∧ raw.type = some 11 ∧
        ∃ entry ∈ message.nested, IsEntryOf fullName raw.typeName entry) := by
      rintro ⟨repeated, holds, named⟩
      obtain ⟨entry, found⟩ := exists_findMapEntry_iff.mpr named
      have asked := entryOf?_eq_some_iff.mpr ⟨repeated, holds, found⟩
      rw [absent] at asked
      cases asked
    refine ⟨rfl, rfl, ?_, ?_, fun map set => ?_⟩
    · exact iff_of_false (kind_copy_ne_map _ _ _) Bool.false_ne_true
    · exact iff_of_false Bool.false_ne_true unnamed
    · cases set
  · obtain ⟨repeated, holds, found⟩ := entryOf?_eq_some_iff.mp found
    have last := findMapEntry_eq_some_iff.mp found
    refine ⟨rfl, rfl, iff_of_true rfl rfl, iff_of_true rfl ?_, fun other set => ?_⟩
    · exact ⟨repeated, holds, entry, last.mem, last.holds⟩
    · obtain rfl := Option.some.inj set
      exact ⟨Cardinality.ofLabel_eq_repeated.mpr repeated, entry, last,
        MapEntry.foldedFrom folds⟩

/-- A message as it is made from its descriptor: map entries are no longer among its nested messages
but in its fields. -/
structure Message.FoldedFrom (raw : Descriptor.Message) (message : Message) : Prop where
  name : message.name = raw.name
  messages : List.Forall₂
    (fun nested made => made.name = nested.name ∧
      made.fullName = message.fullName ++ Text.dot :: nested.name)
    (raw.nested.filter fun nested => !nested.mapEntry) message.messages
  fields : List.Forall₂ (Field.FoldedFrom raw message.fullName) raw.fields message.fields
  extensions : ∀ extension ∈ message.extensions, extension.IsPlain

private theorem isPlain_extensionsOf {locations : List Descriptor.Location} {path : List Int}
    {list : Nat} {raws : List Descriptor.Field} {extensions : List Field}
    (converted : extensionsOf locations path list raws = .ok extensions) :
    ∀ extension ∈ extensions, extension.IsPlain := by
  intro extension member
  obtain ⟨placed, -, made⟩ := Result.exists_of_mem_mapM converted member
  obtain ⟨-, rfl⟩ := Field.plain_nil_eq_ok.mp (Result.located_eq_ok.mp made)
  exact Field.isPlain_copy _ _

private theorem Message.foldedFrom {locations : List Descriptor.Location} {scope : Text}
    {path : List Int} {raw : Descriptor.Message} {message : Message}
    (converted : Message.ofDescriptor locations scope path raw = .ok message) :
    message.FoldedFrom raw := by
  obtain ⟨fields, fieldsMade, messages, nestedMade, extensions, extensionsMade, rfl⟩ :=
    Message.ofDescriptor_eq_ok_iff.mp converted
  refine ⟨rfl, ?_, ?_, isPlain_extensionsOf extensionsMade⟩
  · refine (forall₂_nestedOf nestedMade).imp fun nested made ⟨nestedPath, nestedConverted⟩ => ?_
    have names := Message.ofDescriptor_eq_ok nestedConverted
    exact ⟨names.name, names.name ▸ names.fullName⟩
  · exact (forall₂_fieldsOf fieldsMade).imp fun _ _ ⟨_, made⟩ => Field.foldedFrom made

theorem File.madeFrom_at {raw : Descriptor.File} {file : File}
    (converted : File.ofDescriptor raw = .ok file) {position : List Nat} {message : Message}
    (found : file.messageAt? position = some message) :
    ∃ origin, raw.keptAt? position = some origin ∧ message.MadeFrom raw.locations origin := by
  have step : ∀ message origin, Message.MadeFrom raw.locations origin message →
      List.Forall₂ (fun message origin => Message.MadeFrom raw.locations origin message)
        message.messages origin.kept := fun message origin made => made.nested.flip
  exact nodeAt?_related step (File.madeFrom converted).flip found

theorem File.foldedFrom {raw : Descriptor.File} {file : File}
    (converted : File.ofDescriptor raw = .ok file) {position : List Nat} {message : Message}
    (found : file.messageAt? position = some message) :
    ∃ origin, raw.keptAt? position = some origin ∧ message.FoldedFrom origin := by
  obtain ⟨origin, foundOrigin, scope, path, made⟩ := File.madeFrom_at converted found
  exact ⟨origin, foundOrigin, Message.foldedFrom made⟩

def File.HasField (file : File) (field : Field) : Prop :=
  field ∈ file.extensions ∨ ∃ position message, file.messageAt? position = some message ∧
    (field ∈ message.fields ∨ field ∈ message.extensions)

theorem File.isPlain_extensions {raw : Descriptor.File} {file : File}
    (converted : File.ofDescriptor raw = .ok file) :
    ∀ extension ∈ file.extensions, extension.IsPlain := by
  obtain ⟨-, _, -, extensions, made, rfl⟩ := File.ofDescriptor_eq_ok_iff.mp converted
  exact isPlain_extensionsOf made

/-- A field that, if it is a map, has a key and a value that is no map. -/
def Field.MapComplete (field : Field) : Prop :=
  field.kind = .map → ∃ key value, field.map = some ⟨some key, some value⟩ ∧ value.kind ≠ .map

private theorem Field.FoldedFrom.mapComplete {message : Descriptor.Message} {fullName : Text}
    {raw : Descriptor.Field} {field : Field} (folded : field.FoldedFrom message fullName raw) :
    field.MapComplete := by
  intro isMap
  obtain ⟨map, set⟩ := Option.isSome_iff_exists.mp (folded.kind_iff.mp isMap)
  obtain ⟨-, entry, -, parts⟩ := folded.folded map set
  obtain ⟨rawKey, -, key⟩ := parts.key
  obtain ⟨rawValue, -, value⟩ := parts.value
  refine ⟨.copy none [] rawKey, .copy none [] rawValue, ?_, (parts.plain _ (Or.inr value)).kind⟩
  rw [set, ← key, ← value]

private theorem File.mapComplete {raw : Descriptor.File} {file : File}
    (converted : File.ofDescriptor raw = .ok file) {field : Field} (has : file.HasField field) :
    field.MapComplete := by
  have plain (isPlain : field.IsPlain) : field.MapComplete :=
    fun isMap => absurd isMap isPlain.kind
  rcases has with extension | ⟨position, message, found, member⟩
  · exact plain (File.isPlain_extensions converted field extension)
  · obtain ⟨origin, -, folded⟩ := File.foldedFrom converted found
    rcases member with member | extension
    · obtain ⟨raw, -, fieldFolded⟩ := Result.exists_of_mem_forall₂ folded.fields member
      exact fieldFolded.mapComplete
    · exact plain (folded.extensions field extension)

end Schema

/-- A field without a type because its map lacks its key or value, or because the value is a map
itself. -/
def Fault.BlamesMap (fault : Fault) : Prop :=
  ∃ field kind reason, fault.cause = .unsupported field kind reason ∧
    (reason.message = Text.ofString "map without key and value types" ∨
      reason.message = Text.ofString "map values may not be maps")

private theorem Fault.not_blamesMap_unsupported (owner : Text) (kind : Schema.FieldKind)
    (name : Text) {reason : Unsupported}
    (other : reason ∈ [Unsupported.kind, .mapKey, .notEnum name, .notMessage name]) :
    ¬(Fault.unsupported owner kind reason).BlamesMap := by
  have ends (ending : Text) (last : UInt8) (same : ending.getLast? = some last) :
      (name ++ ending).getLast? = some last := by
    rw [List.getLast?_append, same, Option.some_or]
  -- both texts about maps end in an `s`; the others may begin with any name but end otherwise
  have message : reason.message.getLast? ≠ some 115 := by
    simp only [List.mem_cons, List.not_mem_nil, or_false] at other
    rcases other with rfl | rfl | rfl | rfl
    · decide
    · decide
    · rw [Unsupported.message, ends _ 109 (by decide)]
      decide
    · rw [Unsupported.message, ends _ 101 (by decide)]
      decide
  rintro ⟨_, _, _, cause, same | same⟩
  · obtain ⟨-, -, rfl⟩ := Fault.unsupported.inj cause
    rw [same] at message
    exact message (by decide)
  · obtain ⟨-, -, rfl⟩ := Fault.unsupported.inj cause
    rw [same] at message
    exact message (by decide)

section

variable {table : SymbolTable} {source : Text} {field : Schema.Field} {fault : Fault}

private theorem ElementType.not_blamesMap_ofField {owner : Text}
    (failed : ofField table source owner field = .error fault) : ¬fault.BlamesMap := by
  rcases ofField_eq_error failed with rfl | ⟨reason, listed, rfl⟩
  · rintro ⟨_, _, _, cause, -⟩
    cases cause
  · refine Fault.not_blamesMap_unsupported owner field.kind field.typeName ?_
    simp only [List.mem_cons] at listed ⊢
    tauto

private theorem FieldType.not_blamesMap_ofField (complete : field.MapComplete)
    (failed : ofField table source field = .error fault) : ¬fault.BlamesMap := by
  rw [ofField] at failed
  split at failed
  · rename_i isMap
    obtain ⟨key, value, entry, notMap⟩ := complete isMap
    rw [ofMap, entry] at failed
    dsimp only at failed
    rw [if_neg notMap] at failed
    split at failed
    · obtain rfl := Except.error.inj failed
      exact Fault.not_blamesMap_unsupported _ _ [] (by simp)
    · split at failed
      · rename_i inner keyFailed
        obtain rfl := Except.error.inj failed
        exact ElementType.not_blamesMap_ofField keyFailed
      · split at failed
        · rename_i inner valueFailed
          obtain rfl := Except.error.inj failed
          exact ElementType.not_blamesMap_ofField valueFailed
        · cases failed
  · split at failed
    · rename_i inner elementFailed
      obtain rfl := Except.error.inj failed
      exact ElementType.not_blamesMap_ofField elementFailed
    · cases failed

private theorem Imports.mapField_eq_error {imports : Imports}
    (failed : (imports.mapField table source field).1 = .error fault) :
    FieldType.ofField table source field = .error fault := by
  rw [mapField, recordField_eq] at failed
  cases typed : FieldType.ofField table source field with
  | error inner =>
    rw [typed] at failed
    exact congrArg Except.error (Except.error.inj failed)
  | ok type =>
    rw [typed] at failed
    cases failed

end

namespace Schema

/-- In a converted file every message, at any depth, has its map entries folded into the fields that
name them, no extension is a map or in a oneof, and no field or extension lacks a type because of
its map. -/
theorem maps_folded {raw : Descriptor.File} {file : File}
    (converted : File.ofDescriptor raw = .ok file) :
    (∀ position message, file.messageAt? position = some message →
      ∃ origin, raw.keptAt? position = some origin ∧ message.FoldedFrom origin) ∧
    (∀ extension ∈ file.extensions, extension.IsPlain) ∧
    ∀ field, file.HasField field → ∀ (imports : Imports) (table : SymbolTable) (source : Text)
      (fault : Fault), (imports.mapField table source field).1 = .error fault →
        ¬fault.BlamesMap := by
  refine ⟨fun position message => File.foldedFrom converted, File.isPlain_extensions converted, ?_⟩
  intro field has imports table source fault failed
  exact FieldType.not_blamesMap_ofField (File.mapComplete converted has)
    (Imports.mapField_eq_error failed)

/-- A descriptor with a map field and a field of nested messages side by side. -/
def stockDescriptor : Descriptor.File where
  name := "stock.proto"
  package := "shop"
  messages := [{
    name := "Stock"
    fields := [
      { name := "counts", number := 1, label := 3, type := some 11,
        typeName := ".shop.Stock.CountsEntry" },
      { name := "items", number := 2, label := 3, type := some 11,
        typeName := ".shop.Stock.Item" }]
    nested := [
      { name := "CountsEntry", mapEntry := true, fields := [
        { name := "key", number := 1, type := some 9 },
        { name := "value", number := 2, type := some 5 }] },
      { name := "Item" }] }]

theorem maps_folded_stock :
    ∃ file message counts items, File.ofDescriptor stockDescriptor = .ok file ∧
      file.messageAt? [0] = some message ∧ message.fields = [counts, items] ∧
      counts.kind = .map ∧ items.kind = .message ∧
      (∃ origin, stockDescriptor.keptAt? [0] = some origin ∧ message.FoldedFrom origin) ∧
      (∀ extension ∈ file.extensions, extension.IsPlain) ∧
      ∀ (imports : Imports) (table : SymbolTable) (source : Text) (fault : Fault),
        (imports.mapField table source counts).1 = .error fault → ¬fault.BlamesMap := by
  have run : ∃ file, File.ofDescriptor stockDescriptor = .ok file ∧
      ∃ message, file.messageAt? [0] = some message ∧
      ∃ counts items, message.fields = [counts, items] ∧ counts.kind = .map ∧
        items.kind = .message := ⟨_, rfl, _, rfl, _, _, rfl, rfl, rfl⟩
  obtain ⟨file, converted, message, found, counts, items, fields, isMap, isMessage⟩ := run
  obtain ⟨folded, plain, typed⟩ := maps_folded converted
  have has : file.HasField counts := Or.inr ⟨[0], message, found, Or.inl (by simp [fields])⟩
  exact ⟨file, message, counts, items, converted, found, fields, isMap, isMessage,
    folded [0] message found, plain, typed counts has⟩

end Schema

end ProtoTypings
