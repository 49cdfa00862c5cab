import Mathlib.Data.List.Pairwise
import ProtoTypings.Proofs.ImportPath
import ProtoTypings.Proofs.Inspection

set_option autoImplicit false
set_option relaxedAutoImplicit false

/-!
The names of generated files. A stem with one of two endings makes the name of a message file or of
a service file, and each ending alone keeps different stems apart. Across the two kinds there is
one way to meet: the service file of `a` is called like the message file of `a_grpc`.
-/

namespace ProtoTypings

namespace Path

/-- The schema file whose message file is called like the service file of the one with this path. -/
def companion (path : Text) : Text := stem path ++ "_grpc.proto"

private theorem stem_injOn {path path' : Text} (extension : Text.ofString ".proto" <:+ path)
    (extension' : Text.ofString ".proto" <:+ path') (same : stem path = stem path') :
    path = path' := by
  rw [← stem_append extension, ← stem_append extension', same]

private theorem stem_companion (path : Text) : stem (companion path) = stem path ++ "_grpc" := by
  have split : companion path = (stem path ++ "_grpc") ++ Text.ofString ".proto" :=
    (List.append_assoc (stem path) (Text.ofString "_grpc") (Text.ofString ".proto")).symm
  have extension : Text.ofString ".proto" <:+ companion path := split ▸ List.suffix_append _ _
  exact List.append_cancel_right ((stem_append extension).trans split)

private theorem messageFile_inj {path path' : Text} (extension : Text.ofString ".proto" <:+ path)
    (extension' : Text.ofString ".proto" <:+ path') (same : messageFile path = messageFile path') :
    path = path' := by
  apply stem_injOn extension extension'
  exact List.append_cancel_right (List.append_cancel_right same)

private theorem serviceFile_inj {path path' : Text} (extension : Text.ofString ".proto" <:+ path)
    (extension' : Text.ofString ".proto" <:+ path') (same : serviceFile path = serviceFile path') :
    path = path' := by
  apply stem_injOn extension extension'
  exact List.append_cancel_right (List.append_cancel_right same)

private theorem messageFile_companion (path : Text) :
    messageFile (companion path) = serviceFile path := by
  rw [messageFile, messageModule, stem_companion, serviceFile, List.append_assoc (stem path)]
  rfl

private theorem eq_companion {path path' : Text} (extension' : Text.ofString ".proto" <:+ path')
    (same : serviceFile path = messageFile path') : path' = companion path := by
  have extension : Text.ofString ".proto" <:+ companion path :=
    ⟨stem path ++ "_grpc", List.append_assoc _ _ _⟩
  exact messageFile_inj extension' extension (same.symm.trans (messageFile_companion path).symm)

private theorem companion_ne (path : Text) : companion path ≠ path := by
  intro same
  have stems : stem path ++ Text.ofString "_grpc" = stem path :=
    (stem_companion path).symm.trans (congrArg stem same)
  have lengths := congrArg List.length stems
  have ending : (Text.ofString "_grpc").length = 5 := by decide
  rw [List.length_append] at lengths
  omega

end Path

namespace Schema

def File.outputNames (file : File) : List Text :=
  Path.messageFile file.path ::
    if file.services.isEmpty then [] else [Path.serviceFile file.path]

private theorem File.mem_outputNames {file : File} {name : Text} :
    name ∈ file.outputNames ↔ name = Path.messageFile file.path ∨
      file.services ≠ [] ∧ name = Path.serviceFile file.path := by
  unfold outputNames
  cases file.services with
  | nil => simp
  | cons service rest => simp

private theorem File.services_ofDescriptor {raw : Descriptor.File} {file : File}
    (converted : File.ofDescriptor raw = .ok file) : file.services = [] ↔ raw.services = [] := by
  obtain ⟨-, messages, -, extensions, -, rfl⟩ := File.ofDescriptor_eq_ok_iff.mp converted
  simp

private theorem nodup_outputNames_iff {files : List File} (distinct : (files.map File.path).Nodup)
    (extension : ∀ file ∈ files, Text.ofString ".proto" <:+ file.path) :
    (files.flatMap File.outputNames).Nodup ↔ ∀ file ∈ files, file.services ≠ [] →
      Path.companion file.path ∉ files.map File.path := by
  rw [List.nodup_flatMap]
  constructor
  · rintro ⟨-, disjoint⟩ file member declares joined
    obtain ⟨other, otherMember, path⟩ := List.mem_map.mp joined
    have different : file ≠ other := by
      rintro rfl
      exact Path.companion_ne file.path path.symm
    have symmetric : Std.Symm (Function.onFun List.Disjoint File.outputNames) :=
      ⟨fun _ _ apart _ inSecond inFirst => apart inFirst inSecond⟩
    have apart := disjoint.forall member otherMember different
    refine apart (File.mem_outputNames.mpr (Or.inr ⟨declares, rfl⟩))
      (File.mem_outputNames.mpr (Or.inl ?_))
    rw [path, Path.messageFile_companion]
  · intro alone
    -- the service file of the first path is no message file of the second
    have crossed {file other : File} (member : file ∈ files) (otherMember : other ∈ files)
        (declares : file.services ≠ []) :
        Path.serviceFile file.path ≠ Path.messageFile other.path := by
      intro same
      have joined := Path.eq_companion (extension other otherMember) same
      exact alone file member declares (joined ▸ List.mem_map_of_mem otherMember)
    constructor
    · intro file member
      by_cases declares : file.services = []
      · simp [File.outputNames, declares]
      · simpa [File.outputNames, declares] using (crossed member member declares).symm
    · refine (List.pairwise_map.mp distinct).imp_of_mem ?_
      intro file other member otherMember different name inFile inOther
      rcases File.mem_outputNames.mp inFile with rfl | ⟨declares, rfl⟩
      · rcases File.mem_outputNames.mp inOther with same | ⟨otherDeclares, same⟩
        · exact different (Path.messageFile_inj (extension file member)
            (extension other otherMember) same)
        · exact crossed otherMember member otherDeclares same.symm
      · rcases File.mem_outputNames.mp inOther with same | ⟨-, same⟩
        · exact crossed member otherMember declares same
        · exact different (Path.serviceFile_inj (extension file member)
            (extension other otherMember) same)

end Schema

namespace Generation

private theorem Workshop.names_output {workshop : Workshop} {file : Schema.File}
    (named : file.path ≠ [])
    {outputs : List OutputFile} (worked : (workshop.output file).result = .ok outputs) :
    outputs.map OutputFile.name = file.outputNames := by
  rw [workshop.result_output named] at worked
  obtain ⟨made, declared, laidOut⟩ := Result.bind_eq_ok.mp worked
  have present := Workshop.isSome_services (Result.located_eq_ok.mp declared)
  obtain ⟨messages, -, laidOut⟩ := Result.bind_eq_ok.mp laidOut
  cases services : made.services with
  | none =>
    have empty : file.services = [] := by simpa [services] using present
    simp only [services, Result.pure_eq_ok] at laidOut
    simp [← laidOut, Schema.File.outputNames, empty]
  | some model =>
    have nonempty : file.services ≠ [] := by simpa [services] using present
    simp only [services, Result.bind_eq_ok, Result.pure_eq_ok] at laidOut
    obtain ⟨content, -, rfl⟩ := laidOut
    simp [Schema.File.outputNames, nonempty]

private theorem Workshop.names_inTurn {workshop : Workshop} {files : List Schema.File}
    (named : ∀ file ∈ files, file.path ≠ []) {outputs : List OutputFile}
    (worked : Group.inTurn (files.map workshop.output) = .ok outputs) :
    outputs.map OutputFile.name = files.flatMap Schema.File.outputNames := by
  induction files generalizing outputs with
  | nil =>
    obtain rfl := Except.ok.inj worked
    rfl
  | cons file rest ih =>
    rw [List.map_cons, Group.inTurn_cons] at worked
    obtain ⟨first, firstWorked, worked⟩ := Result.bind_eq_ok.mp worked
    obtain ⟨more, moreWorked, worked⟩ := Result.bind_eq_ok.mp worked
    obtain rfl := Result.pure_eq_ok.mp worked
    have restNamed : ∀ other ∈ rest, other.path ≠ [] := fun other member =>
      named other (List.mem_cons_of_mem file member)
    rw [List.map_append, List.flatMap_cons, ih restNamed moreWorked,
      Workshop.names_output (named file List.mem_cons_self) firstWorked]

private theorem wanted_of_isIn {encoded : EncodedRequest} {input : Text}
    (decoded : encoded.IsIn input)
    {request : Request} (read : Request.ofBytes input = .ok request) :
    request.toGenerate.map Schema.File.path = encoded.toGenerate ∧
    ((∀ file ∈ request.toGenerate, file.services ≠ [] →
        Path.companion file.path ∉ encoded.toGenerate) ↔
      ∀ raw ∈ encoded.files, raw.name ∈ encoded.toGenerate → raw.services ≠ [] →
        Path.companion raw.name ∉ encoded.toGenerate) := by
  have paths := Request.paths_toGenerate decoded read
  rw [Request.ofBytes_of_isIn decoded] at read
  obtain ⟨converted, found, -⟩ := Request.ofEncoded_eq_ok.mp read
  obtain ⟨each, distinct⟩ := Request.convertFiles_nil_eq_ok.mp converted
  refine ⟨paths, ?_, ?_⟩
  · intro alone raw member wanted declares
    obtain ⟨file, fileMember, converts⟩ := Result.exists_of_mem_forall₂ each.flip member
    have path : file.path = raw.name := (Schema.File.ofDescriptor_eq_ok converts).path
    have asked : file ∈ request.toGenerate := by
      obtain ⟨other, otherMember, samePath⟩ := List.mem_map.mp (paths ▸ wanted)
      have inFiles := Request.wanted_subset found otherMember
      rwa [List.inj_on_of_nodup_map distinct fileMember inFiles (path.trans samePath.symm)]
    rw [← path]
    exact alone file asked (mt (Schema.File.services_ofDescriptor converts).mp declares)
  · intro alone file member declares
    obtain ⟨raw, rawMember, converts⟩ :=
      Result.exists_of_mem_forall₂ each (Request.wanted_subset found member)
    have path : file.path = raw.name := (Schema.File.ofDescriptor_eq_ok converts).path
    have wanted : raw.name ∈ encoded.toGenerate := by
      rw [← path, ← paths]
      exact List.mem_map_of_mem member
    rw [path]
    exact alone raw rawMember wanted (mt (Schema.File.services_ofDescriptor converts).mpr declares)

/-- No file is generated twice, unless a schema file with services is asked for together with its
companion: then, and only then, names are repeated in the response. -/
theorem outputNames_nodup_iff {schedule : Nat → List GroupStep} {input : Text}
    {environment : Environment} (finishes : RunFinishes schedule input environment)
    {encoded : EncodedRequest} (decoded : encoded.IsIn input) (distinct : encoded.toGenerate.Nodup)
    (extension : ∀ path ∈ encoded.toGenerate, Text.ofString ".proto" <:+ path)
    {response : Response}
    (succeeded : (runUnder schedule input environment).result = .ok response) :
    (response.files.map Response.File.name).Nodup ↔
      ∀ raw ∈ encoded.files, raw.name ∈ encoded.toGenerate → raw.services ≠ [] →
        Path.companion raw.name ∉ encoded.toGenerate := by
  obtain ⟨request, options, table, outputs, read, -, -, worked, rfl⟩ :=
    (result_runUnder_eq_ok finishes).mp succeeded
  obtain ⟨named, chosen⟩ := Request.files_of_ofBytes read
  obtain ⟨paths, services⟩ := wanted_of_isIn decoded read
  have names : outputs.map OutputFile.name = request.toGenerate.flatMap Schema.File.outputNames :=
    Workshop.names_inTurn (fun file member => named file (chosen member)) worked
  have given : (Response.ofFiles outputs).files.map Response.File.name =
      (outputs.map OutputFile.name).map some := by
    simp [Response.ofFiles]
  have wellNamed : ∀ file ∈ request.toGenerate, Text.ofString ".proto" <:+ file.path :=
    fun file member => extension file.path (paths ▸ List.mem_map_of_mem member)
  rw [given, List.nodup_map_iff (fun _ _ => Option.some.inj), names,
    Schema.nodup_outputNames_iff (paths ▸ distinct) wellNamed, paths]
  exact services

/-- A request for two files, the first of which declares a service. -/
def requestFor (first second : Text) : Text :=
  Wire.writeBytes 1 first ++ Wire.writeBytes 1 second ++
    Wire.writeBytes 15 (Wire.writeBytes 1 first ++ Wire.writeBytes 6 (Wire.writeBytes 1 "S")) ++
    Wire.writeBytes 15 (Wire.writeBytes 1 second)

def recordFor (first second : Text) : List Wire.Field :=
  [⟨1, .bytes first⟩, ⟨1, .bytes second⟩,
    ⟨15, .bytes (Wire.writeBytes 1 first ++ Wire.writeBytes 6 (Wire.writeBytes 1 "S"))⟩,
    ⟨15, .bytes (Wire.writeBytes 1 second)⟩]

private theorem isIn_requestFor (first second : Text) (nonempty : requestFor first second ≠ [])
    (read : Wire.readRecord .request (requestFor first second) = .ok (recordFor first second)) :
    (EncodedRequest.ofRecord (recordFor first second)).IsIn (requestFor first second) :=
  ⟨nonempty, by rw [EncodedRequest.read, read]⟩

/-- A request on which the names of the generated files are the given ones. -/
def Names (input : Text) (names : List Text) : Prop :=
  (run input fun _ => none).result.toOption.map (·.files.map Response.File.name) =
    some (names.map some)

instance (input : Text) (names : List Text) : Decidable (Names input names) :=
  inferInstanceAs (Decidable (_ = _))

private theorem exists_response_of_names {input : Text} {names : List Text}
    (given : Names input names) : ∃ response, (run input fun _ => none).result = .ok response ∧
      response.files.map Response.File.name = names.map some := by
  unfold Names at given
  cases ended : (run input fun _ => none).result with
  | error fault => simp [ended, Except.toOption] at given
  | ok response => exact ⟨response, rfl, by simpa [ended, Except.toOption] using given⟩

/-- A request for `a`, with a service, and `b_grpc`. -/
def neighbours : Text := requestFor "a.proto" "b_grpc.proto"

theorem outputNames_nodup_iff_neighbours :
    ∃ (encoded : EncodedRequest) (response : Response), encoded.IsIn neighbours ∧
      encoded.toGenerate.Nodup ∧
      (∀ path ∈ encoded.toGenerate, Text.ofString ".proto" <:+ path) ∧
      (run neighbours fun _ => none).result = .ok response ∧
      (response.files.map Response.File.name).Nodup := by
  have decoded := isIn_requestFor "a.proto" "b_grpc.proto" (by decide +kernel) (by decide +kernel)
  have finishes : RunFinishes inOrder neighbours fun _ => none :=
    (sequential_of_parallel_eq (by decide +kernel)).runFinishes inOrder
  have given : Names neighbours ["a_pb.d.ts", "a_grpc_pb.d.ts", "b_grpc_pb.d.ts"] := by
    decide +kernel
  obtain ⟨response, succeeded, -⟩ := exists_response_of_names given
  have distinct : (EncodedRequest.ofRecord
      (recordFor "a.proto" "b_grpc.proto")).toGenerate.Nodup := by decide +kernel
  have extension : ∀ path ∈ (EncodedRequest.ofRecord
      (recordFor "a.proto" "b_grpc.proto")).toGenerate, Text.ofString ".proto" <:+ path := by
    decide +kernel
  refine ⟨_, response, decoded, distinct, extension, succeeded, ?_⟩
  rw [outputNames_nodup_iff finishes decoded distinct extension succeeded]
  decide +kernel

/-- A request for `a`, with a service, and its companion. -/
def companions : Text := requestFor "a.proto" "a_grpc.proto"

/-- The service file of `a` and the message file of `a_grpc` get one name. -/
theorem outputNames_repeated_companions :
    ∃ (encoded : EncodedRequest) (response : Response), encoded.IsIn companions ∧
      encoded.toGenerate.Nodup ∧
      (∀ path ∈ encoded.toGenerate, Text.ofString ".proto" <:+ path) ∧
      (run companions fun _ => none).result = .ok response ∧
      ¬(response.files.map Response.File.name).Nodup := by
  have decoded := isIn_requestFor "a.proto" "a_grpc.proto" (by decide +kernel) (by decide +kernel)
  have given : Names companions ["a_pb.d.ts", "a_grpc_pb.d.ts", "a_grpc_pb.d.ts"] := by
    decide +kernel
  obtain ⟨response, succeeded, names⟩ := exists_response_of_names given
  refine ⟨_, response, decoded, by decide +kernel, by decide +kernel, succeeded, ?_⟩
  rw [names]
  decide +kernel

end Generation

end ProtoTypings
