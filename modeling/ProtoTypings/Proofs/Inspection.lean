import ProtoTypings.Proofs.Output
import ProtoTypings.Proofs.PluginCommand

set_option autoImplicit false
set_option relaxedAutoImplicit false

/-!
Inspection against generation. A run makes and lays out declarations file by file, while inspection
makes those of all files before anything is printed. Since declarations of a file with a path can
always be laid out, both meet the same first failure.
-/

namespace ProtoTypings

namespace Generation

open Declaration (FileDeclarations MessageFile ServiceFile)

/-- The generated files of an inspected schema file: its messages, then its services if present. -/
def Inspected.outputs (entry : Inspected) : Except Fault (List OutputFile) := do
  let messages ← Layout.renderMessages entry.declarations.messages
  let messageFile : OutputFile := ⟨Path.messageFile entry.path, messages⟩
  match entry.declarations.services with
  | none => return [messageFile]
  | some model =>
    let services ← Layout.renderServices model
    return [messageFile, ⟨Path.serviceFile entry.path, services⟩]

theorem Workshop.declarations_eq_ok {workshop : Workshop} {file : Schema.File}
    {made : FileDeclarations} :
    workshop.declarations file = .ok made ↔
      MessageFile.ofSchema file workshop.table workshop.options = .ok made.messages ∧
      ServiceFile.ofSchema file workshop.table workshop.options = .ok made.services := by
  simp only [declarations, Result.bind_eq_ok, Result.pure_eq_ok]
  constructor
  · rintro ⟨messages, messagesMade, services, servicesMade, rfl⟩
    exact ⟨messagesMade, servicesMade⟩
  · rintro ⟨messagesMade, servicesMade⟩
    exact ⟨made.messages, messagesMade, made.services, servicesMade, rfl⟩

theorem Workshop.isSome_services {workshop : Workshop} {file : Schema.File}
    {made : FileDeclarations} (declared : workshop.declarations file = .ok made) :
    made.services.isSome = true ↔ file.services ≠ [] := by
  have servicesMade := (declarations_eq_ok.mp declared).2
  rw [ServiceFile.ofSchema_eq_map] at servicesMade
  split at servicesMade
  · rename_i empty
    rw [← Except.ok.inj servicesMade]
    simpa using empty
  · rename_i nonempty
    obtain ⟨signed, -, made⟩ := Result.map_eq_ok.mp servicesMade
    rw [← made]
    simpa using nonempty

private theorem Workshop.outputs_of_declarations {workshop : Workshop} {file : Schema.File}
    (named : file.path ≠ []) {made : FileDeclarations}
    (declared : workshop.declarations file = .ok made) :
    ∃ laidOut, Inspected.outputs ⟨file.path, made⟩ = .ok laidOut := by
  obtain ⟨messagesMade, servicesMade⟩ := declarations_eq_ok.mp declared
  obtain ⟨content, rendered⟩ := Layout.renderMessages_ok named messagesMade
  cases services : made.services with
  | none => exact ⟨_, by simp only [Inspected.outputs, rendered, services]; rfl⟩
  | some model =>
    rw [services] at servicesMade
    obtain ⟨more, moreRendered⟩ := Layout.renderServices_ok named servicesMade
    exact ⟨_, by simp only [Inspected.outputs, rendered, services, moreRendered]; rfl⟩

theorem Workshop.result_output (workshop : Workshop) {file : Schema.File} (named : file.path ≠ []) :
    (workshop.output file).result = (do
      let made ← Fault.located (.file file.path) (workshop.declarations file)
      Inspected.outputs ⟨file.path, made⟩) := by
  simp only [output, declarations, Traced.result_bind, Traced.result_emit, Traced.result_ofResult,
    Traced.result_pure, pure_bind]
  cases messagesMade : MessageFile.ofSchema file workshop.table workshop.options with
  | error fault => rfl
  | ok messages =>
    obtain ⟨content, rendered⟩ := Layout.renderMessages_ok named messagesMade
    cases servicesMade : ServiceFile.ofSchema file workshop.table workshop.options with
    | error fault => simp [Fault.located, rendered, bind, Except.bind]
    | ok services =>
      cases services with
      | none =>
        have skipped : (serviceOutput file none).result = .ok [] := rfl
        simp [Fault.located, Inspected.outputs, rendered, skipped, bind, Except.bind, pure,
          Except.pure]
      | some model =>
        obtain ⟨more, moreRendered⟩ := Layout.renderServices_ok named servicesMade
        have laidOut : (serviceOutput file (some model)).result =
            .ok [⟨Path.serviceFile file.path, more⟩] := by
          simp [serviceOutput, moreRendered, pure_bind]
        simp [Fault.located, Inspected.outputs, rendered, moreRendered, laidOut, bind, Except.bind,
          pure, Except.pure]

def respond (entries : List Inspected) : Except Fault Response :=
  (entries.mapM Inspected.outputs).map fun laidOut => Response.ofFiles laidOut.flatten

private theorem inspectFiles_eq_ok {workshop : Workshop} {files : List Schema.File}
    {entries : List Inspected} :
    inspectFiles workshop files = .ok entries ↔ List.Forall₂ (fun file entry =>
      entry.path = file.path ∧ workshop.declarations file = .ok entry.declarations)
      files entries := by
  induction files generalizing entries with
  | nil => simp [inspectFiles, eq_comm]
  | cons file rest ih =>
    simp only [inspectFiles, Result.bind_eq_ok, Result.located_eq_ok, Result.pure_eq_ok, ih,
      List.forall₂_cons_left_iff]
    constructor
    · rintro ⟨made, declared, more, inspected, rfl⟩
      exact ⟨⟨file.path, made⟩, more, ⟨rfl, declared⟩, inspected, rfl⟩
    · rintro ⟨⟨path, made⟩, more, ⟨rfl, declared⟩, inspected, rfl⟩
      exact ⟨made, declared, more, inspected, rfl⟩

/-- Making and laying out declarations file by file is as good as making them all first. -/
private theorem Workshop.inTurn_inspected (workshop : Workshop) {files : List Schema.File}
    (named : ∀ file ∈ files, file.path ≠ []) :
    Group.inTurn (files.map workshop.output) = (do
      let entries ← inspectFiles workshop files
      let laidOut ← entries.mapM Inspected.outputs
      return laidOut.flatten) := by
  induction files with
  | nil => rfl
  | cons file rest ih =>
    have restNamed : ∀ other ∈ rest, other.path ≠ [] := fun other member =>
      named other (List.mem_cons_of_mem file member)
    have fileNamed : file.path ≠ [] := named file List.mem_cons_self
    rw [List.map_cons, Group.inTurn_cons, ih restNamed, workshop.result_output fileNamed,
      inspectFiles]
    cases declared : Fault.located (.file file.path) (workshop.declarations file) with
    | error fault => rfl
    | ok made =>
      -- laying out the first file cannot fail, so the next failure is one of the rest
      obtain ⟨own, laidOut⟩ := Workshop.outputs_of_declarations fileNamed
        (Result.located_eq_ok.mp declared)
      cases inspectFiles workshop rest with
      | error fault => simp [bind, Except.bind, laidOut]
      | ok entries =>
        cases more : entries.mapM Inspected.outputs <;>
          simp [bind, Except.bind, pure, Except.pure, laidOut, more]

private theorem Workshop.result_generate_inspected (workshop : Workshop)
    (sequential : workshop.options.parallel = false) {files : List Schema.File}
    (named : ∀ file ∈ files, file.path ≠ []) (schedule : Nat → List GroupStep) :
    (workshop.generate schedule files).result = inspectFiles workshop files >>= respond := by
  rw [result_generate, allOutputs, if_neg (by simp [sequential]), result_outputs,
    workshop.inTurn_inspected named]
  cases inspectFiles workshop files with
  | error fault => rfl
  | ok entries =>
    simp only [bind, Except.bind, respond]
    cases entries.mapM Inspected.outputs <;> rfl

private theorem respond_of_inspectFiles {workshop : Workshop} {files : List Schema.File}
    (named : ∀ file ∈ files, file.path ≠ []) {entries : List Inspected}
    (inspected : inspectFiles workshop files = .ok entries) :
    ∃ response, respond entries = .ok response := by
  rw [respond]
  cases laidOut : entries.mapM Inspected.outputs with
  | ok outputs => exact ⟨_, rfl⟩
  | error fault =>
    obtain ⟨entry, member, failed⟩ := Result.mapM_eq_error laidOut
    obtain ⟨file, fileMember, path, declared⟩ :=
      Result.exists_of_mem_forall₂ (inspectFiles_eq_ok.mp inspected) member
    obtain ⟨outputs, made⟩ := Workshop.outputs_of_declarations (named file fileMember) declared
    rw [← path] at made
    cases failed.symm.trans made

private theorem result_inspect (input : Text) (environment : Environment) :
    (inspect input environment).result = (do
      let request ← Request.ofBytes input
      let options ← request.options environment
      let workshop ← (Workshop.ofFiles request.files options).result
      inspectFiles workshop request.toGenerate) := by
  simp [inspect]

private theorem result_runUnder_inspect {input : Text} {environment : Environment}
    (sequential : Sequential input environment) (schedule : Nat → List GroupStep) :
    (runUnder schedule input environment).result =
      (inspect input environment).result >>= respond := by
  rw [result_runUnder, result_inspect]
  cases read : Request.ofBytes input with
  | error fault => rfl
  | ok request =>
    cases accepted : request.options environment with
    | error fault => simp only [bind, Except.bind, accepted]
    | ok options =>
      cases built : (Workshop.ofFiles request.files options).result with
      | error fault => simp only [bind, Except.bind, accepted, built]
      | ok workshop =>
        obtain ⟨table, -, rfl⟩ := Workshop.result_ofFiles_eq_ok.mp built
        obtain ⟨named, chosen⟩ := Request.files_of_ofBytes read
        have generated := Workshop.result_generate_inspected ⟨table, options⟩
          (sequential request options read accepted) (fun file member => named file (chosen member))
          schedule
        simp only [bind, Except.bind, accepted, built] at generated ⊢
        exact generated

private theorem inspect_eq_error_iff {input : Text} {environment : Environment}
    (sequential : Sequential input environment) (schedule : Nat → List GroupStep) (fault : Fault) :
    (inspect input environment).result = .error fault ↔
      (runUnder schedule input environment).result = .error fault := by
  rw [result_runUnder_inspect sequential schedule]
  cases inspected : (inspect input environment).result with
  | error met => simp [bind, Except.bind]
  | ok entries =>
    rw [result_inspect] at inspected
    obtain ⟨request, read, inspected⟩ := Result.bind_eq_ok.mp inspected
    obtain ⟨options, -, inspected⟩ := Result.bind_eq_ok.mp inspected
    obtain ⟨workshop, -, inspected⟩ := Result.bind_eq_ok.mp inspected
    obtain ⟨named, chosen⟩ := Request.files_of_ofBytes read
    obtain ⟨response, responded⟩ :=
      respond_of_inspectFiles (fun file member => named file (chosen member)) inspected
    change _ ↔ respond entries = .error fault
    simp [responded]

private theorem inspect_eq_ok {input : Text} {environment : Environment} {entries : List Inspected}
    (inspected : (inspect input environment).result = .ok entries) :
    ∃ encoded request, EncodedRequest.read input = .ok encoded ∧
      Request.ofBytes input = .ok request ∧ entries.map Inspected.path = encoded.toGenerate ∧
      ∀ entry ∈ entries, ∃ file, request.load entry.path = .ok file ∧
        (entry.declarations.services.isSome = true ↔ file.services ≠ []) := by
  rw [result_inspect] at inspected
  obtain ⟨request, read, inspected⟩ := Result.bind_eq_ok.mp inspected
  obtain ⟨options, -, inspected⟩ := Result.bind_eq_ok.mp inspected
  obtain ⟨workshop, -, inspected⟩ := Result.bind_eq_ok.mp inspected
  have each := inspectFiles_eq_ok.mp inspected
  obtain ⟨encoded, decoded⟩ := Request.exists_isIn_of_ofBytes read
  obtain ⟨converted, found, -⟩ :=
    Request.ofEncoded_eq_ok.mp ((Request.ofBytes_of_isIn decoded).symm.trans read)
  have distinct := (Request.convertFiles_nil_eq_ok.mp converted).2
  refine ⟨encoded, request, decoded.2, read, ?_, fun entry member => ?_⟩
  · have entryPaths : request.toGenerate.map Schema.File.path = entries.map Inspected.path :=
      Result.map_eq_map_iff.mpr (each.imp fun _ _ related => related.1.symm)
    rw [← entryPaths, Request.paths_toGenerate decoded read]
  · obtain ⟨file, fileMember, path, declared⟩ := Result.exists_of_mem_forall₂ each member
    have isFile := Request.wanted_subset found fileMember
    exact ⟨file, (Request.findFile_eq_ok distinct).mpr ⟨isFile, path.symm⟩,
      Workshop.isSome_services declared⟩

end Generation

namespace CommandLine

open Generation (GroupStep HelpAsked Inspected Sequential inspect runUnder)

/-- The command for inspection fails exactly if a run on the same bytes does. -/
def InspectTellsRun (schedule : Nat → List GroupStep) (world : World) : Prop :=
  (executeUnder schedule world ["inspect"]).status = 1 ↔
    ∃ fault, (runUnder schedule world.input world.environment).result = .error fault

private theorem executeUnder_inspect (schedule : Nat → List GroupStep) {world : World}
    {arguments : List Text} {file : Option Text} {bytes : Text} {verbosity : Int}
    (asked : Action.ofArguments arguments = .ok (.inspect file))
    (given : requestBytes world file = .ok bytes)
    (readable : world.environment.verbosity = .ok verbosity) :
    executeUnder schedule world arguments =
      .ofTraced .inspect verbosity printInspected (inspect bytes world.environment) := by
  simp only [executeUnder, asked, Action.run, runInspect, readable, given]

section

variable (schedule : Nat → List GroupStep) {world : World} {arguments : List Text}
  {file : Option Text} {bytes : Text}

private theorem inspect_outcome (asked : Action.ofArguments arguments = .ok (.inspect file))
    (given : requestBytes world file = .ok bytes)
    (sequential : Sequential bytes world.environment) {verbosity : Int}
    (readable : world.environment.verbosity = .ok verbosity)
    (notAsked : ¬HelpAsked bytes world.environment) :
    ((executeUnder schedule world arguments).status = 1 ↔
      (∃ fault, (runUnder schedule bytes world.environment).result = .error fault) ∨
      ∃ entries flaw, (inspect bytes world.environment).result = .ok entries ∧
        (inspectedData entries).toYaml = .error flaw) ∧
    (∀ fault, (runUnder schedule bytes world.environment).result = .error fault →
      (executeUnder schedule world arguments).usage = false ∧
      ∃ log, (executeUnder schedule world arguments).errors = log ++ fault.diagnostic) ∧
    ∀ entries flaw, (inspect bytes world.environment).result = .ok entries →
      (inspectedData entries).toYaml = .error flaw →
      (executeUnder schedule world arguments).usage = true ∧
      ∃ log, (executeUnder schedule world arguments).errors =
        log ++ (Fault.within .modelConversion (.unconvertible flaw)).diagnostic := by
  have sameFault := Generation.inspect_eq_error_iff sequential schedule
  rw [executeUnder_inspect schedule asked given readable]
  cases inspected : (inspect bytes world.environment).result with
  | error fault =>
    have failed := (sameFault fault).mp inspected
    have help := (Generation.runUnder_fails schedule bytes world.environment fault failed).2
    have noHelp : fault.asksForHelp = false := by simpa [notAsked] using help
    simp [Outcome.ofTraced, inspected, failed, noHelp]
  | ok entries =>
    have works (fault : Fault) :
        (runUnder schedule bytes world.environment).result ≠ .error fault := by
      intro failed
      cases inspected.symm.trans ((sameFault fault).mpr failed)
    cases converted : (inspectedData entries).toYaml with
    | ok value =>
      refine ⟨?_, fun fault failed => absurd failed (works fault), ?_⟩
      · simp [Outcome.ofTraced, inspected, works, printInspected, converted]
      · intro again flaw same unconverted
        obtain rfl := Except.ok.inj same
        cases converted.symm.trans unconverted
    | error flaw =>
      refine ⟨?_, fun fault failed => absurd failed (works fault), ?_⟩
      · simp [Outcome.ofTraced, inspected, works, printInspected, converted]
      · intro again other same unconverted
        obtain rfl := Except.ok.inj same
        obtain rfl := Except.error.inj (converted.symm.trans unconverted)
        simp [Outcome.ofTraced, inspected, printInspected, converted]

/-- Inspection and generation agree on every request that does not ask for parallel work. They fail
with the same failure, and when they do not, the response has what was inspected, laid out. The
command for inspection fails in one case more, if the declarations cannot be told in YAML. -/
theorem inspect_agrees (asked : Action.ofArguments arguments = .ok (.inspect file))
    (given : requestBytes world file = .ok bytes)
    (sequential : Sequential bytes world.environment) :
    (∀ fault, (inspect bytes world.environment).result = .error fault ↔
      (runUnder schedule bytes world.environment).result = .error fault) ∧
    (∀ entries response, (inspect bytes world.environment).result = .ok entries →
      (runUnder schedule bytes world.environment).result = .ok response →
      (∃ laidOut, entries.mapM Inspected.outputs = .ok laidOut ∧
        response = Response.ofFiles laidOut.flatten) ∧
      ∃ encoded request, EncodedRequest.read bytes = .ok encoded ∧
        Request.ofBytes bytes = .ok request ∧ entries.map Inspected.path = encoded.toGenerate ∧
        ∀ entry ∈ entries, ∃ schema, request.load entry.path = .ok schema ∧
          (entry.declarations.services.isSome = true ↔ schema.services ≠ [])) ∧
    ∀ verbosity, world.environment.verbosity = .ok verbosity →
      ¬HelpAsked bytes world.environment →
      ((executeUnder schedule world arguments).status = 1 ↔
        (∃ fault, (runUnder schedule bytes world.environment).result = .error fault) ∨
        ∃ entries flaw, (inspect bytes world.environment).result = .ok entries ∧
          (inspectedData entries).toYaml = .error flaw) ∧
      (∀ fault, (runUnder schedule bytes world.environment).result = .error fault →
        (executeUnder schedule world arguments).usage = false ∧
        ∃ log, (executeUnder schedule world arguments).errors = log ++ fault.diagnostic) ∧
      ∀ entries flaw, (inspect bytes world.environment).result = .ok entries →
        (inspectedData entries).toYaml = .error flaw →
        (executeUnder schedule world arguments).usage = true ∧
        ∃ log, (executeUnder schedule world arguments).errors =
          log ++ (Fault.within .modelConversion (.unconvertible flaw)).diagnostic := by
  refine ⟨Generation.inspect_eq_error_iff sequential schedule, ?_, ?_⟩
  · intro entries response inspected succeeded
    rw [Generation.result_runUnder_inspect sequential, inspected] at succeeded
    obtain ⟨laidOut, made, handedOver⟩ := Result.map_eq_ok.mp succeeded
    exact ⟨⟨laidOut, made, handedOver.symm⟩, Generation.inspect_eq_ok inspected⟩
  · intro verbosity readable notAsked
    exact inspect_outcome schedule asked given sequential readable notAsked

end

/-- A request for a file whose message has a comment with the character DELETE in it. -/
def deleteWorld : World where
  environment := fun _ => none
  input := Wire.writeBytes 1 "f.proto" ++ Wire.writeBytes 2 "comments" ++ Wire.writeBytes 15
    [10, 7, 102, 46, 112, 114, 111, 116, 111, 34, 3, 10, 1, 77, 74, 11, 10, 9, 10, 2, 4, 0, 26, 3,
      97, 127, 98]
  openFile := fun _ => none

private theorem sequential_deleteWorld : Sequential deleteWorld.input deleteWorld.environment :=
  Generation.sequential_of_parallel_eq (by decide +kernel)

private theorem status_deleteWorld :
    (executeUnder Generation.inOrder deleteWorld ["inspect"]).status = 1 := by
  decide +kernel

private theorem runUnder_deleteWorld (fault : Fault) :
    (runUnder Generation.inOrder deleteWorld.input deleteWorld.environment).result ≠
      .error fault := by
  have succeeds : (runUnder Generation.inOrder deleteWorld.input
      deleteWorld.environment).result.isOk = true := by decide +kernel
  intro failed
  simp [failed, Except.isOk, Except.toBool] at succeeds

/-- The command fails although a run would not. -/
theorem not_inspectTellsRun_deleteWorld :
    Sequential deleteWorld.input deleteWorld.environment ∧
      ¬InspectTellsRun Generation.inOrder deleteWorld := by
  refine ⟨sequential_deleteWorld, fun tells => ?_⟩
  obtain ⟨fault, failed⟩ := tells.mp status_deleteWorld
  exact runUnder_deleteWorld fault failed

/-- What the command reports there are declarations that cannot be told in YAML. -/
theorem inspect_agrees_deleteWorld :
    ∃ entries flaw, (inspect deleteWorld.input deleteWorld.environment).result = .ok entries ∧
      (inspectedData entries).toYaml = .error flaw := by
  have asked : Action.ofArguments ["inspect"] = .ok (.inspect none) := by decide +kernel
  have readable : deleteWorld.environment.verbosity = .ok 0 := by decide +kernel
  have notAsked : ¬HelpAsked deleteWorld.input deleteWorld.environment := by
    intro help
    obtain ⟨fault, failed⟩ := Generation.runUnder_of_helpAsked Generation.inOrder help
    exact runUnder_deleteWorld fault failed
  have tells := (inspect_agrees Generation.inOrder asked rfl sequential_deleteWorld).2.2 0 readable
    notAsked
  rcases tells.1.mp status_deleteWorld with ⟨fault, failed⟩ | unconvertible
  · exact absurd failed (runUnder_deleteWorld fault)
  · exact unconvertible

end CommandLine

end ProtoTypings
