import ProtoTypings.Generation.Run
import ProtoTypings.Proofs.Conversion
import ProtoTypings.Proofs.Failure
import ProtoTypings.Proofs.Group
import ProtoTypings.Proofs.Outline
import ProtoTypings.Proofs.SymbolTable

set_option autoImplicit false
set_option relaxedAutoImplicit false

/-!
How runs end. The files of a request have paths, so that their declarations can always be laid out;
what is left to fail with are malformed requests and elements without a type.
-/

namespace ProtoTypings

open Result (FailsOnly)

namespace Layout

open Declaration (MessageFile ServiceFile)

variable {file : Schema.File} {table : SymbolTable} {options : Options}

theorem renderMessages_ok (named : file.path ≠ []) {model : MessageFile}
    (made : MessageFile.ofSchema file table options = .ok model) :
    ∃ text, renderMessages model = .ok text := by
  obtain ⟨outline, -, rfl⟩ := MessageFile.ofSchema_eq_ok made
  rw [renderMessages, if_neg named]
  exact ⟨_, rfl⟩

theorem renderServices_ok (named : file.path ≠ []) {model : ServiceFile}
    (made : ServiceFile.ofSchema file table options = .ok (some model)) :
    ∃ text, renderServices model = .ok text := by
  obtain ⟨services, taken, nonempty, signed, rfl⟩ := Declaration.ServiceFile.ofSchema_eq_ok made
  have signedNonempty : services ≠ [] := by
    rintro rfl
    exact nonempty (List.forall₂_nil_right_iff.mp signed)
  have runtime : Declaration.grpcRuntime options.grpcJs ≠ [] := by
    cases options.grpcJs <;> decide
  rw [renderServices, if_neg named, if_neg (by simpa using signedNonempty), if_neg runtime]
  exact ⟨_, rfl⟩

end Layout

namespace Request

private theorem path_of_convertFiles {earlier files : List Schema.File}
    {raws : List Descriptor.File}
    (named : ∀ file ∈ earlier, file.path ≠ []) (converted : convertFiles earlier raws = .ok files) :
    ∀ file ∈ files, file.path ≠ [] := by
  induction raws generalizing earlier with
  | nil =>
    obtain rfl := Except.ok.inj converted
    exact named
  | cons raw rest ih =>
    rw [convertFiles] at converted
    split at converted
    · simp at converted
    · rename_i next nextConverted
      split at converted
      · simp at converted
      · refine ih (fun file member => ?_) converted
        rcases List.mem_append.mp member with before | last
        · exact named file before
        · obtain rfl := List.mem_singleton.mp last
          have conversion := Schema.File.ofDescriptor_eq_ok nextConverted
          exact conversion.path ▸ conversion.named

theorem wanted_subset {files chosen : List Schema.File} {paths : List Text}
    (found : wanted files paths = .ok chosen) : chosen ⊆ files := by
  induction paths generalizing chosen with
  | nil =>
    obtain rfl := Except.ok.inj found
    exact List.nil_subset files
  | cons path rest ih =>
    rw [wanted] at found
    split at found
    · simp at found
    · rename_i file fileFound
      obtain ⟨more, moreFound, rfl⟩ := Result.map_eq_ok.mp found
      unfold findFile at fileFound
      split at fileFound
      · rename_i first firstFound
        obtain rfl := Except.ok.inj fileFound
        exact List.cons_subset.mpr ⟨List.mem_of_find?_eq_some firstFound, ih moreFound⟩
      · simp at fileFound

theorem files_of_ofBytes {input : Text} {request : Request} (read : ofBytes input = .ok request) :
    (∀ file ∈ request.files, file.path ≠ []) ∧ request.toGenerate ⊆ request.files := by
  rw [ofBytes] at read
  split at read
  · simp at read
  · split at read
    · simp at read
    · rw [ofEncoded] at read
      obtain ⟨files, converted, read⟩ := Result.bind_eq_ok.mp read
      obtain ⟨chosen, found, read⟩ := Result.bind_eq_ok.mp read
      obtain rfl := Result.pure_eq_ok.mp read
      exact ⟨path_of_convertFiles (by simp) converted, wanted_subset found⟩

end Request

namespace Generation

namespace Traced

variable {α β : Type}

@[simp] theorem result_bind (first : Traced α) (next : α → Traced β) :
    (first >>= next).result = first.result >>= fun a => (next a).result := by
  change (Traced.bind first next).result = _
  unfold Traced.bind
  cases first.result <;> rfl

@[simp] theorem result_pure (a : α) : (pure a : Traced α).result = pure a := rfl

@[simp] theorem result_ofResult (result : Except Fault α) : (ofResult result).result = result := rfl

@[simp] theorem result_emit (event : Event) : (emit event).result = pure () := rfl

@[simp] theorem result_onFailure (event : Event) (computation : Traced α) :
    (onFailure event computation).result = computation.result := by
  unfold onFailure
  split <;> rfl

end Traced

namespace Workshop

variable (workshop : Workshop)

private theorem output_fails {bare : Text → Prop} {file : Schema.File} (named : file.path ≠ [])
    (shown : ∀ text ∈ file.bareTexts, bare text) :
    FailsOnly (Fault.Untypable bare) (workshop.output file).result := by
  have located {α : Type} {result : Except Fault α}
      (fails : FailsOnly (Fault.Untypable bare) result) :
      FailsOnly (Fault.Untypable bare) (Fault.located (.file file.path) result) :=
    Fault.untypable_located (List.forall_mem_nil _) fails
  simp only [output, Traced.result_bind, Traced.result_emit, Traced.result_ofResult,
    Traced.result_pure, pure_bind]
  refine .bind (located (Declaration.MessageFile.ofSchema_fails _ _ shown)) fun messages made => ?_
  obtain ⟨text, laidOut⟩ := Layout.renderMessages_ok named (Result.located_eq_ok.mp made)
  refine .bind (by rw [laidOut]; exact Result.failsOnly_ok text) fun _ _ => ?_
  refine .bind (located (Declaration.ServiceFile.ofSchema_fails _ _ shown))
    fun services made => .bind ?_ fun _ _ => Result.failsOnly_pure _
  cases services with
  | none => simp [serviceOutput]
  | some model =>
    obtain ⟨text, laidOut⟩ := Layout.renderServices_ok named (Result.located_eq_ok.mp made)
    simp [serviceOutput, laidOut]

section

variable {bare : Text → Prop} {files : List Schema.File} (named : ∀ file ∈ files, file.path ≠ [])
  (shown : ∀ file ∈ files, ∀ text ∈ file.bareTexts, bare text)

include named shown

private theorem outputs_fails :
    FailsOnly (Fault.Untypable bare) (workshop.outputs files).result := by
  induction files with
  | nil => exact Result.failsOnly_pure _
  | cons file rest ih =>
    obtain ⟨fileNamed, restNamed⟩ := List.forall_mem_cons.mp named
    obtain ⟨fileShown, restShown⟩ := List.forall_mem_cons.mp shown
    rw [outputs, Traced.result_bind]
    refine .bind (workshop.output_fails fileNamed fileShown) fun _ _ => ?_
    rw [Traced.result_bind]
    exact .bind (ih restNamed restShown) fun _ _ => Result.failsOnly_pure _

private theorem outputsUnder_fails (schedule : List GroupStep) :
    FailsOnly (Fault.Untypable bare) (workshop.outputsUnder schedule files).result := by
  have sound := Group.sound_run (files.map workshop.output) schedule
  simp only [outputsUnder, Group.result]
  cases failure : (Group.run (files.map workshop.output) schedule).failure with
  | none => exact Result.failsOnly_ok _
  | some recorded =>
    obtain ⟨job, member, fault, failed, rfl⟩ := sound.failure recorded failure
    obtain ⟨file, fileMember, rfl⟩ := List.mem_map.mp member
    exact Result.failsOnly_error.mpr
      (workshop.output_fails (named file fileMember) (shown file fileMember) fault failed)

theorem generate_fails (schedule : Nat → List GroupStep) :
    FailsOnly (Fault.Untypable bare) (workshop.generate schedule files).result := by
  simp only [generate, allOutputs, Traced.result_bind, Traced.result_onFailure, Traced.result_emit,
    Traced.result_pure, pure_bind]
  refine .bind ?_ fun _ _ => Result.failsOnly_pure _
  split
  · exact workshop.outputsUnder_fails named shown _
  · exact workshop.outputs_fails named shown

end

theorem ofFiles_fails {bare : Text → Prop} (files : List Schema.File) (options : Options) :
    FailsOnly (Fault.Malformed bare) (ofFiles files options).result := by
  simp only [ofFiles, Traced.result_onFailure, Traced.result_bind, Traced.result_emit,
    Traced.result_ofResult, Traced.result_pure, pure_bind]
  refine .bind ?_ fun _ _ => Result.failsOnly_pure _
  intro fault failed
  obtain ⟨inner, refused, rfl⟩ := Result.located_eq_error.mp failed
  obtain ⟨name, first, second, rfl⟩ := SymbolTable.ofFiles_eq_error refused
  exact ⟨rfl, rfl, List.forall_mem_nil _⟩

end Workshop

theorem result_runUnder (schedule : Nat → List GroupStep) (input : Text)
    (environment : Environment) :
    (runUnder schedule input environment).result = (do
      let request ← Request.ofBytes input
      let options ← request.options environment
      let workshop ← (Workshop.ofFiles request.files options).result
      (workshop.generate schedule request.toGenerate).result) := by
  simp [runUnder, parse]

/-- A plugin parameter that asks for help, in a request that can be read. -/
def HelpAsked (input : Text) (environment : Environment) : Prop :=
  ∃ request, Request.ofBytes input = .ok request ∧
    Options.ofParameter environment request.parameter = .error .helpRequested

def runFaultKinds : List FaultKind :=
  [.malformedRequest, .unresolvedReference, .unsupportedFieldKind]

private theorem mem_runFaultKinds_of_untypable {bare : Text → Prop} {fault : Fault}
    (untypable : fault.Untypable bare) : fault.kind ∈ runFaultKinds := by
  rcases untypable.kind with kind | kind <;> simp [kind, runFaultKinds]

/-- What a run can fail with, and that it calls for help exactly if the parameter does. -/
theorem runUnder_fails (schedule : Nat → List GroupStep) (input : Text)
    (environment : Environment) :
    FailsOnly (fun fault => fault.kind ∈ runFaultKinds ∧
        (fault.asksForHelp = true ↔ HelpAsked input environment))
      (runUnder schedule input environment).result := by
  rw [result_runUnder]
  intro fault failed
  rcases Result.bind_eq_error.mp failed with unread | ⟨request, read, failed⟩
  · have malformed : fault.Malformed fun _ => True :=
      Request.ofBytes_fails (fun _ _ _ _ _ _ => trivial) fault unread
    refine ⟨by simp [malformed.kind, runFaultKinds], fun help => ?_, ?_⟩
    · simp [malformed.noHelp] at help
    · rintro ⟨request, read, -⟩
      exact absurd (unread.symm.trans read) (by simp)
  have asked : HelpAsked input environment ↔
      Options.ofParameter environment request.parameter = .error .helpRequested := by
    constructor
    · rintro ⟨other, otherRead, help⟩
      obtain rfl := Except.ok.inj (otherRead.symm.trans read)
      exact help
    · exact fun help => ⟨request, read, help⟩
  rw [asked]
  rcases Result.bind_eq_error.mp failed with refused | ⟨options, accepted, failed⟩
  · obtain ⟨kind, help⟩ := request.options_fails environment fault refused
    exact ⟨by simp [kind, runFaultKinds], help⟩
  have notAsked :
      Options.ofParameter environment request.parameter ≠ .error .helpRequested := by
    intro help
    simp [Request.options, help] at accepted
  suffices fault.kind ∈ runFaultKinds ∧ fault.asksForHelp = false by
    exact ⟨this.1, by simp [this.2, notAsked]⟩
  rcases Result.bind_eq_error.mp failed with clash | ⟨workshop, -, failed⟩
  · have malformed : fault.Malformed fun _ => True :=
      Workshop.ofFiles_fails request.files options fault clash
    exact ⟨by simp [malformed.kind, runFaultKinds], malformed.noHelp⟩
  · obtain ⟨named, chosen⟩ := Request.files_of_ofBytes read
    have untypable : fault.Untypable fun _ => True :=
      workshop.generate_fails (fun file member => named file (chosen member))
        (fun _ _ _ _ => trivial) schedule fault failed
    exact ⟨mem_runFaultKinds_of_untypable untypable, untypable.noHelp⟩

theorem runUnder_of_helpAsked (schedule : Nat → List GroupStep) {input : Text}
    {environment : Environment} (asked : HelpAsked input environment) :
    ∃ fault, (runUnder schedule input environment).result = .error fault := by
  obtain ⟨request, read, help⟩ := asked
  refine ⟨.malformedBy "invalid plugin parameter" .helpRequested, ?_⟩
  rw [result_runUnder, read]
  change request.options environment >>= _ = _
  rw [Request.options, help]
  rfl

end Generation

end ProtoTypings
