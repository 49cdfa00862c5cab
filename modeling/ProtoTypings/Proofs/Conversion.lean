import ProtoTypings.Proofs.Position
import ProtoTypings.Proofs.SharedOneof

set_option autoImplicit false
set_option relaxedAutoImplicit false

/-!
How schema files and their messages are put together from the parts of their descriptors, and where
the messages and enums of a schema file come from: each is that of a descriptor in the scope of the
messages around it. Map entries are left out, so positions may differ.
-/

namespace ProtoTypings

/-- The nested messages of a descriptor that are converted as such. -/
def Descriptor.Message.kept (raw : Descriptor.Message) : List Descriptor.Message :=
  raw.nested.filter fun nested => !nested.mapEntry

theorem Descriptor.Message.mem_kept {raw nested : Descriptor.Message} :
    nested ∈ raw.kept ↔ nested ∈ raw.nested ∧ nested.mapEntry = false := by
  rw [kept, List.mem_filter, Bool.not_eq_true']

namespace Schema

private theorem fullName_of_mem_enumsOf {locations : List Descriptor.Location} {scope : Text}
    {path : List Int} {list : Nat} {raws : List Descriptor.Enum} {enum : Enum}
    (member : enum ∈ enumsOf locations scope path list raws) :
    enum.fullName = scope ++ Text.dot :: enum.name := by
  obtain ⟨raw, -, rfl⟩ := List.mem_map.mp member
  rfl

theorem nestedOf_eq_mapM (locations : List Descriptor.Location) (fullName : Text) (path : List Int)
    (index : Nat) (raws : List Descriptor.Message) :
    nestedOf locations fullName path index raws =
      ((raws.zipIdx index).filter fun placed => !placed.1.mapEntry).mapM fun placed =>
        Message.ofDescriptor locations fullName
          (childPath path ListNumber.nestedMessages placed.2) placed.1 := by
  induction raws generalizing index with
  | nil =>
    rw [nestedOf]
    rfl
  | cons raw rest ih =>
    rw [nestedOf, List.zipIdx_cons, List.filter_cons]
    cases entry : raw.mapEntry with
    | true => simpa [entry] using ih (index + 1)
    | false =>
      simp only [Bool.false_eq_true, if_false, Bool.not_false, if_true, List.mapM_cons,
        ← ih (index + 1)]

theorem map_fst_placed_kept (raw : Descriptor.Message) :
    ((raw.nested.zipIdx 0).filter fun placed => !placed.1.mapEntry).map Prod.fst = raw.kept := by
  calc ((raw.nested.zipIdx 0).filter fun placed => !placed.1.mapEntry).map Prod.fst
      = ((raw.nested.zipIdx 0).map Prod.fst).filter fun nested => !nested.mapEntry := by
        rw [List.filter_map]
        rfl
    _ = raw.kept := by rw [List.zipIdx_map_fst, Descriptor.Message.kept]

theorem forall₂_nestedOf {locations : List Descriptor.Location} {fullName : Text} {path : List Int}
    {raw : Descriptor.Message} {messages : List Message}
    (converted : nestedOf locations fullName path 0 raw.nested = .ok messages) :
    List.Forall₂ (fun nested message => ∃ nestedPath,
      Message.ofDescriptor locations fullName nestedPath nested = .ok message)
      raw.kept messages := by
  rw [nestedOf_eq_mapM, Result.mapM_eq_ok] at converted
  rw [← map_fst_placed_kept, List.forall₂_map_left_iff]
  exact converted.imp fun placed message made => ⟨_, made⟩

theorem forall₂_fieldsOf {locations : List Descriptor.Location} {path : List Int}
    {oneofs : List Oneof} {findEntry : Text → Option Descriptor.Message}
    {raws : List Descriptor.Field} {fields : List Field}
    (converted : fieldsOf locations path oneofs findEntry raws = .ok fields) :
    List.Forall₂ (fun raw field => ∃ comments,
      Field.ofDescriptor oneofs findEntry comments raw = .ok field) raws fields := by
  have each := Result.mapM_eq_ok.mp converted
  rw [← List.zipIdx_map_fst 0 raws, List.forall₂_map_left_iff]
  exact each.imp fun placed field made => ⟨_, Result.located_eq_ok.mp made⟩

theorem Message.ofDescriptor_eq_ok_iff {locations : List Descriptor.Location} {scope : Text}
    {path : List Int} {raw : Descriptor.Message} {message : Message} :
    Message.ofDescriptor locations scope path raw = .ok message ↔
      ∃ fields, fieldsOf locations path (oneofsOf raw.oneofs raw.fields)
        (findMapEntry (scope ++ Text.dot :: raw.name) raw.nested) raw.fields = .ok fields ∧
      ∃ messages,
        nestedOf locations (scope ++ Text.dot :: raw.name) path 0 raw.nested = .ok messages ∧
      ∃ extensions,
        extensionsOf locations path ListNumber.nestedExtensions raw.extensions = .ok extensions ∧
      { name := raw.name
        fullName := scope ++ Text.dot :: raw.name
        fields
        messages
        enums := enumsOf locations (scope ++ Text.dot :: raw.name) path ListNumber.nestedEnums
          raw.enums
        oneofs := oneofsOf raw.oneofs raw.fields
        extensions
        comments := commentAt locations path } = message := by
  cases raw
  rw [Message.ofDescriptor, oneofsAndFields_eq]
  simp only [Result.bind_eq_ok, Result.pure_eq_ok, Result.located_eq_ok, Result.map_eq_ok,
    exists_exists_and_eq_and]

/-- A message that is made from a descriptor, whatever the scope and place. -/
def Message.MadeFrom (locations : List Descriptor.Location) (raw : Descriptor.Message)
    (message : Message) : Prop :=
  ∃ scope path, Message.ofDescriptor locations scope path raw = .ok message

theorem Message.MadeFrom.nested {locations : List Descriptor.Location} {raw : Descriptor.Message}
    {message : Message} (made : message.MadeFrom locations raw) :
    List.Forall₂ (Message.MadeFrom locations) raw.kept message.messages := by
  obtain ⟨scope, path, converted⟩ := made
  obtain ⟨_, -, messages, nestedMade, _, -, rfl⟩ := Message.ofDescriptor_eq_ok_iff.mp converted
  exact (forall₂_nestedOf nestedMade).imp fun _ _ ⟨path, made⟩ => ⟨_, path, made⟩

/-- A message converted inside a scope, as far as names are concerned. -/
structure Message.Converted (locations : List Descriptor.Location) (scope : Text)
    (raw : Descriptor.Message) (message : Message) : Prop where
  name : message.name = raw.name
  fullName : message.fullName = scope ++ Text.dot :: message.name
  messages : ∀ nested ∈ message.messages, ∃ origin ∈ raw.nested, ∃ path,
    Message.ofDescriptor locations message.fullName path origin = .ok nested
  enums : ∀ enum ∈ message.enums, enum.fullName = message.fullName ++ Text.dot :: enum.name

theorem Message.ofDescriptor_eq_ok {locations : List Descriptor.Location} {scope : Text}
    {path : List Int} {raw : Descriptor.Message} {message : Message}
    (converted : Message.ofDescriptor locations scope path raw = .ok message) :
    Message.Converted locations scope raw message := by
  obtain ⟨fields, -, messages, nested, extensions, -, rfl⟩ :=
    Message.ofDescriptor_eq_ok_iff.mp converted
  refine ⟨rfl, rfl, fun message member => ?_, fun _ => fullName_of_mem_enumsOf⟩
  obtain ⟨origin, kept, origins⟩ := Result.exists_of_mem_forall₂ (forall₂_nestedOf nested) member
  exact ⟨origin, (Descriptor.Message.mem_kept.mp kept).1, origins⟩

theorem File.ofDescriptor_eq_ok_iff {raw : Descriptor.File} {file : File} :
    File.ofDescriptor raw = .ok file ↔ raw.name ≠ [] ∧
      ∃ messages, (raw.messages.zipIdx.mapM fun placed =>
        Message.ofDescriptor raw.locations (packageScope raw.package)
          (childPath [] ListNumber.fileMessages placed.2) placed.1) = .ok messages ∧
      ∃ extensions, extensionsOf raw.locations [] ListNumber.fileExtensions raw.extensions =
        .ok extensions ∧
      { path := raw.name
        package := raw.package
        syntaxName := if raw.syntaxName = [] then Text.ofString "proto2" else raw.syntaxName
        dependencies := raw.dependencies
        messages
        enums := enumsOf raw.locations (packageScope raw.package) [] ListNumber.fileEnums raw.enums
        services := raw.services.zipIdx.map fun (service, index) =>
          Service.ofDescriptor raw.locations (packageScope raw.package)
            (childPath [] ListNumber.fileServices index) service
        extensions } = file := by
  rw [File.ofDescriptor]
  split
  · rename_i unnamed
    refine iff_of_false ?_ fun converted => converted.1 unnamed
    simp [bind, Except.bind, throw, throwThe, MonadExceptOf.throw]
  · rename_i named
    rw [and_iff_right named]
    simp only [Result.bind_eq_ok, Result.pure_eq_ok, Result.located_eq_ok]

theorem File.madeFrom {raw : Descriptor.File} {file : File}
    (converted : File.ofDescriptor raw = .ok file) :
    List.Forall₂ (Message.MadeFrom raw.locations) raw.messages file.messages := by
  obtain ⟨-, messages, made, _, -, rfl⟩ := File.ofDescriptor_eq_ok_iff.mp converted
  have each := Result.mapM_eq_ok.mp made
  rw [← List.zipIdx_map_fst 0 raw.messages, List.forall₂_map_left_iff]
  exact each.imp fun placed message origin => ⟨_, _, origin⟩

structure File.Converted (raw : Descriptor.File) (file : File) : Prop where
  named : raw.name ≠ []
  path : file.path = raw.name
  package : file.package = raw.package
  messages : ∀ message ∈ file.messages, ∃ origin ∈ raw.messages, ∃ path,
    Message.ofDescriptor raw.locations (packageScope file.package) path origin = .ok message
  enums : ∀ enum ∈ file.enums, enum.fullName = packageScope file.package ++ Text.dot :: enum.name

theorem File.ofDescriptor_eq_ok {raw : Descriptor.File} {file : File}
    (converted : File.ofDescriptor raw = .ok file) : File.Converted raw file := by
  obtain ⟨named, messages, made, extensions, -, rfl⟩ := File.ofDescriptor_eq_ok_iff.mp converted
  refine ⟨named, rfl, rfl, fun message member => ?_, fun _ => fullName_of_mem_enumsOf⟩
  obtain ⟨placed, indexed, origins⟩ := Result.exists_of_mem_mapM made member
  exact ⟨placed.1, List.fst_mem_of_mem_zipIdx indexed, _, origins⟩

end Schema

end ProtoTypings
