import Mathlib.Data.List.Perm.Basic
import ProtoTypings.Proofs.Conversion
import ProtoTypings.Proofs.SymbolTable
import ProtoTypings.Request
import ProtoTypings.Symbol

set_option autoImplicit false
set_option relaxedAutoImplicit false

/-!
What a request is made of: its schema files are those of all descriptors, with different paths, and
the wanted ones are looked up by their paths, in the order asked for. What a schema file adds to the
symbols depends on its path, its package and the names of its messages and enums alone.
-/

namespace ProtoTypings

/-- The name of a message with the names of everything declared inside it. -/
structure NameTree where
  name : Text
  messages : List NameTree
  enums : List Text

structure FileNames where
  path : Text
  package : Text
  messages : List NameTree
  enums : List Text

namespace Descriptor

mutual

/-- The names in a message. Map entries belong to the fields that use them and declare nothing. -/
def Message.nameTree : Message → NameTree
  | { name, nested, enums, .. } => ⟨name, Message.nestedTrees nested, enums.map (·.name)⟩

def Message.nestedTrees : List Message → List NameTree
  | [] => []
  | message :: rest =>
    if message.mapEntry then Message.nestedTrees rest
    else message.nameTree :: Message.nestedTrees rest

end

def File.names (raw : File) : FileNames where
  path := raw.name
  package := raw.package
  messages := raw.messages.map Message.nameTree
  enums := raw.enums.map (·.name)

end Descriptor

namespace NameTree

def enumSymbols (file fullScope scope : Text) (enums : List Text) : List Symbol :=
  enums.map fun name =>
    ⟨fullScope ++ Text.dot :: name, file, Identifier.qualified scope name, .enum⟩

mutual

/-- The symbols of a message inside a scope, of which the full name and the name in declarations are
given. -/
def symbols (file fullScope scope : Text) : NameTree → List Symbol
  | { name, messages, enums } =>
    let fullName := fullScope ++ Text.dot :: name
    let declared := Identifier.qualified scope name
    ⟨fullName, file, declared, .message⟩ ::
      (symbolsOfAll file fullName declared messages ++ enumSymbols file fullName declared enums)

def symbolsOfAll (file fullScope scope : Text) : List NameTree → List Symbol
  | [] => []
  | tree :: rest => tree.symbols file fullScope scope ++ symbolsOfAll file fullScope scope rest

end

end NameTree

def FileNames.symbols (names : FileNames) : List Symbol :=
  let scope := Schema.packageScope names.package
  NameTree.symbolsOfAll names.path scope [] names.messages ++
    NameTree.enumSymbols names.path scope [] names.enums

def Descriptor.File.qualifiedNames (raw : Descriptor.File) : List Text :=
  raw.names.symbols.map Symbol.qualifiedName

namespace Symbol

open Schema (enumsOf nestedOf)

private theorem map_zipIdx {α β : Type} (f : α → β) (xs : List α) :
    xs.zipIdx.map (fun indexed => f indexed.1) = xs.map f :=
  calc xs.zipIdx.map (fun indexed => f indexed.1)
      = (xs.zipIdx.map Prod.fst).map f := List.map_map.symm
    _ = xs.map f := by rw [List.zipIdx_map_fst]

private theorem ofEnums_enumsOf (file scope fullScope : Text) (locations : List Descriptor.Location)
    (path : List Int) (list : Nat) (raws : List Descriptor.Enum) :
    ofEnums file scope (enumsOf locations fullScope path list raws) =
      NameTree.enumSymbols file fullScope scope (raws.map (·.name)) := by
  rw [ofEnums, enumsOf, NameTree.enumSymbols, List.map_map, List.map_map]
  exact map_zipIdx (fun raw => Symbol.mk (fullScope ++ Text.dot :: raw.name) file
    (Identifier.qualified scope raw.name) .enum) raws

mutual

private theorem ofMessage_ofDescriptor (file : Text) (locations : List Descriptor.Location) :
    ∀ (raw : Descriptor.Message) (fullScope scope : Text) (path : List Int)
      (message : Schema.Message),
      Schema.Message.ofDescriptor locations fullScope path raw = .ok message →
      ofMessage file scope message = raw.nameTree.symbols file fullScope scope
  | { name, fields, nested, enums, extensions, oneofs, mapEntry }, fullScope, scope, path, message,
      converted => by
    obtain ⟨fields, -, messages, nestedConverted, extensions, -, rfl⟩ :=
      Schema.Message.ofDescriptor_eq_ok_iff.mp converted
    have inner := ofMessages_nestedOf file locations nested _ (Identifier.qualified scope name) path
      0 messages nestedConverted
    rw [ofMessage, Descriptor.Message.nameTree, NameTree.symbols, inner, ofEnums_enumsOf]

private theorem ofMessages_nestedOf (file : Text) (locations : List Descriptor.Location) :
    ∀ (raws : List Descriptor.Message) (fullScope scope : Text) (path : List Int) (index : Nat)
      (messages : List Schema.Message),
      nestedOf locations fullScope path index raws = .ok messages →
      ofMessages file scope messages = NameTree.symbolsOfAll file fullScope scope
        (Descriptor.Message.nestedTrees raws)
  | [], _, _, _, _, messages, converted => by
    rw [nestedOf, Result.pure_eq_ok] at converted
    rw [← converted, ofMessages, Descriptor.Message.nestedTrees, NameTree.symbolsOfAll]
  | raw :: rest, fullScope, scope, path, index, messages, converted => by
    rw [nestedOf] at converted
    rw [Descriptor.Message.nestedTrees]
    split at converted
    · rename_i isEntry
      rw [if_pos isEntry]
      exact ofMessages_nestedOf file locations rest fullScope scope path (index + 1) messages
        converted
    · rename_i kept
      obtain ⟨first, firstConverted, converted⟩ := Result.bind_eq_ok.mp converted
      obtain ⟨more, moreConverted, converted⟩ := Result.bind_eq_ok.mp converted
      obtain rfl := Result.pure_eq_ok.mp converted
      rw [if_neg kept, ofMessages, NameTree.symbolsOfAll,
        ofMessage_ofDescriptor file locations raw fullScope scope _ first firstConverted,
        ofMessages_nestedOf file locations rest fullScope scope path _ more moreConverted]

end

private theorem ofMessages_mapM (file scope fullScope : Text) (locations : List Descriptor.Location)
    (path : Nat → List Int) {raws : List (Descriptor.Message × Nat)}
    {messages : List Schema.Message}
    (converted : raws.mapM (fun (raw, index) =>
      Schema.Message.ofDescriptor locations fullScope (path index) raw) = .ok messages) :
    ofMessages file scope messages = NameTree.symbolsOfAll file fullScope scope
      (raws.map fun raw => raw.1.nameTree) := by
  replace converted := Result.mapM_eq_ok.mp converted
  induction converted with
  | nil => rw [ofMessages, List.map_nil, NameTree.symbolsOfAll]
  | @cons raw message rest more first _ ih =>
    rw [ofMessages, List.map_cons, NameTree.symbolsOfAll, ih,
      ofMessage_ofDescriptor file locations raw.1 fullScope scope _ message first]

theorem ofFile_eq_symbols {raw : Descriptor.File} {file : Schema.File}
    (converted : Schema.File.ofDescriptor raw = .ok file) :
    ofFile file = raw.names.symbols := by
  obtain ⟨-, messages, made, extensions, -, rfl⟩ := Schema.File.ofDescriptor_eq_ok_iff.mp converted
  have trees := ofMessages_mapM raw.name [] _ raw.locations _ made
  rw [map_zipIdx Descriptor.Message.nameTree] at trees
  rw [ofFile, FileNames.symbols, trees, ofEnums_enumsOf]
  rfl

end Symbol

/-- Bytes that a request can be decoded from. -/
def EncodedRequest.IsIn (encoded : EncodedRequest) (input : Text) : Prop :=
  input ≠ [] ∧ read input = .ok encoded

namespace Request

open Schema (File)

theorem ofBytes_of_isIn {encoded : EncodedRequest} {input : Text} (decoded : encoded.IsIn input) :
    ofBytes input = ofEncoded encoded := by
  rw [ofBytes, if_neg decoded.1, decoded.2]

theorem ofEncoded_eq_ok {encoded : EncodedRequest} {request : Request} :
    ofEncoded encoded = .ok request ↔ convertFiles [] encoded.files = .ok request.files ∧
      wanted request.files encoded.toGenerate = .ok request.toGenerate ∧
      request.parameter = encoded.parameter := by
  simp only [ofEncoded, Result.bind_eq_ok, Result.pure_eq_ok]
  constructor
  · rintro ⟨files, converted, chosen, found, rfl⟩
    exact ⟨converted, found, rfl⟩
  · rintro ⟨converted, found, same⟩
    exact ⟨request.files, converted, request.toGenerate, found, by rw [← same]⟩

theorem exists_isIn_of_ofBytes {input : Text} {request : Request}
    (read : ofBytes input = .ok request) : ∃ encoded : EncodedRequest, encoded.IsIn input := by
  rw [ofBytes] at read
  split at read
  · cases read
  · rename_i nonempty
    split at read
    · cases read
    · rename_i encoded decoded
      exact ⟨encoded, nonempty, decoded⟩

private theorem convertFiles_eq_ok {earlier files : List File} {raws : List Descriptor.File}
    (distinct : (earlier.map File.path).Nodup) :
    convertFiles earlier raws = .ok files ↔ ∃ more,
      List.Forall₂ (fun raw file => File.ofDescriptor raw = .ok file) raws more ∧
      files = earlier ++ more ∧ (files.map File.path).Nodup := by
  induction raws generalizing earlier with
  | nil =>
    rw [convertFiles, Except.ok.injEq]
    constructor
    · rintro rfl
      exact ⟨[], .nil, (List.append_nil earlier).symm, distinct⟩
    · rintro ⟨more, converted, rfl, -⟩
      rw [List.forall₂_nil_left_iff.mp converted, List.append_nil]
  | cons raw rest ih =>
    rw [convertFiles]
    simp only [List.forall₂_cons_left_iff]
    cases converts : File.ofDescriptor raw with
    | error fault => simp
    | ok file =>
      have taken : (earlier.any fun other => decide (other.path = file.path)) = true ↔
          file.path ∈ earlier.map File.path := by simp
      dsimp only
      split
      · rename_i refused
        refine iff_of_false (fun failed => nomatch failed) ?_
        rintro ⟨_, ⟨_, more, same, -, rfl⟩, rfl, whole⟩
        obtain rfl := Except.ok.inj same
        rw [List.map_append, List.map_cons, List.nodup_middle, List.nodup_cons] at whole
        exact whole.1 (List.mem_append_left _ (taken.mp refused))
      · rename_i accepted
        rw [ih (Keyed.nodup_map_concat distinct (mt taken.mpr accepted))]
        constructor
        · rintro ⟨more, converted, rfl, whole⟩
          exact ⟨file :: more, ⟨file, more, rfl, converted, rfl⟩, List.append_assoc .., whole⟩
        · rintro ⟨_, ⟨_, more, same, converted, rfl⟩, rfl, whole⟩
          obtain rfl := Except.ok.inj same
          exact ⟨more, converted, (List.append_assoc earlier [file] more).symm, whole⟩

theorem convertFiles_nil_eq_ok {files : List File} {raws : List Descriptor.File} :
    convertFiles [] raws = .ok files ↔
      List.Forall₂ (fun raw file => File.ofDescriptor raw = .ok file) raws files ∧
        (files.map File.path).Nodup := by
  simp [convertFiles_eq_ok]

theorem convertFiles_cons {raw : Descriptor.File} {file : File} {raws : List Descriptor.File}
    {files : List File} (converts : File.ofDescriptor raw = .ok file) :
    convertFiles [] (raw :: raws) = .ok (file :: files) ↔
      convertFiles [] raws = .ok files ∧ file.path ∉ files.map File.path := by
  simp only [convertFiles_nil_eq_ok, List.forall₂_cons, converts, List.map_cons, List.nodup_cons]
  tauto

theorem convertFiles_perm {raws raws' : List Descriptor.File} (order : raws.Perm raws')
    {files : List File} (converted : convertFiles [] raws = .ok files) :
    ∃ files', convertFiles [] raws' = .ok files' ∧ files.Perm files' := by
  obtain ⟨each, distinct⟩ := convertFiles_nil_eq_ok.mp converted
  obtain ⟨files', each', order'⟩ := List.perm_comp_forall₂ order.symm each
  refine ⟨files', convertFiles_nil_eq_ok.mpr ⟨each', ?_⟩, order'.symm⟩
  exact (order'.map File.path).nodup_iff.mpr distinct

theorem symbols_convertFiles {raws : List Descriptor.File} {files : List File}
    (converted : convertFiles [] raws = .ok files) :
    Symbol.ofFiles files = raws.flatMap fun raw => raw.names.symbols := by
  have each := (convertFiles_nil_eq_ok.mp converted).1
  clear converted
  induction each with
  | nil => rfl
  | cons first _ ih =>
    simp only [Symbol.ofFiles, List.flatMap_cons, Symbol.ofFile_eq_symbols first] at ih ⊢
    rw [ih]

theorem paths_convertFiles {raws : List Descriptor.File} {files : List File}
    (converted : convertFiles [] raws = .ok files) :
    files.map File.path = raws.map (·.name) := by
  have each := (convertFiles_nil_eq_ok.mp converted).1
  clear converted
  induction each with
  | nil => rfl
  | cons first _ ih =>
    rw [List.map_cons, List.map_cons, (Schema.File.ofDescriptor_eq_ok first).path, ih]

theorem findFile_eq_ok {files : List File} (distinct : (files.map File.path).Nodup) {path : Text}
    {file : File} : findFile files path = .ok file ↔ file ∈ files ∧ file.path = path := by
  rw [← Keyed.find?_eq_some_iff distinct, findFile]
  split <;> rename_i found <;> simp [found]

theorem wanted_eq_ok {files chosen : List File} {paths : List Text} :
    wanted files paths = .ok chosen ↔
      List.Forall₂ (fun path file => findFile files path = .ok file) paths chosen := by
  induction paths generalizing chosen with
  | nil => simp [wanted, eq_comm]
  | cons path rest ih =>
    rw [wanted, List.forall₂_cons_left_iff]
    simp only [← ih]
    cases findFile files path with
    | error fault => simp
    | ok file => simp [Result.map_eq_ok, @eq_comm _ chosen]

theorem paths_toGenerate {encoded : EncodedRequest} {input : Text} (decoded : encoded.IsIn input)
    {request : Request} (read : ofBytes input = .ok request) :
    request.toGenerate.map File.path = encoded.toGenerate := by
  obtain ⟨converted, found, -⟩ := ofEncoded_eq_ok.mp ((ofBytes_of_isIn decoded).symm.trans read)
  have distinct := (convertFiles_nil_eq_ok.mp converted).2
  have paths : encoded.toGenerate.map id = request.toGenerate.map File.path :=
    Result.map_eq_map_iff.mpr ((wanted_eq_ok.mp found).imp fun _ _ foundFile =>
      ((findFile_eq_ok distinct).mp foundFile).2.symm)
  rw [← paths, List.map_id]

end Request

end ProtoTypings
