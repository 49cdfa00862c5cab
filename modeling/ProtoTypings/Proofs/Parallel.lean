import ProtoTypings.Proofs.Output

set_option autoImplicit false
set_option relaxedAutoImplicit false

/-!
Work on all files at the same time against work on one after the other. Under every schedule that
comes to its end, the first succeeds exactly if the second does and hands over the same response; if
not, it reports the failure of one of the files, and never that a task was cancelled.
-/

namespace ProtoTypings

open Result (FailsOnly)

namespace Fault

open Generation (GroupFailure)

/-- Failures that do not come from a cancellation, not even inside. -/
def NotCancelled (fault : Fault) : Prop := GroupFailure.cancelled.toFault ∉ fault.chain

private theorem Untypable.notCancelled {bare : Text → Prop} {fault : Fault}
    (untypable : fault.Untypable bare) : fault.NotCancelled := by
  induction untypable with
  | unresolved name source => simp [NotCancelled, chain, GroupFailure.toFault]
  | unsupported field kind shown => simp [NotCancelled, chain, GroupFailure.toFault]
  | within shown met ih => simpa [NotCancelled, chain, GroupFailure.toFault] using ih

end Fault

namespace Layout

open Declaration (MessageFile ServiceFile)

private theorem refuse_notCancelled (layout file : Text) {reason : Text}
    (other : Text.ofString "context canceled" ≠ reason) :
    FailsOnly Fault.NotCancelled (refuse layout file reason) := by
  refine Result.failsOnly_error.mpr ?_
  simp [Fault.NotCancelled, Fault.chain, Generation.GroupFailure.toFault, other]

private theorem renderMessages_notCancelled (file : MessageFile) :
    FailsOnly Fault.NotCancelled (renderMessages file) := by
  rw [renderMessages]
  split
  · exact refuse_notCancelled _ _ (by decide)
  · exact Result.failsOnly_ok _

private theorem renderServices_notCancelled (file : ServiceFile) :
    FailsOnly Fault.NotCancelled (renderServices file) := by
  rw [renderServices]
  split
  · exact refuse_notCancelled _ _ (by decide)
  split
  · exact refuse_notCancelled _ _ (by decide)
  split
  · exact refuse_notCancelled _ _ (by decide)
  · exact Result.failsOnly_ok _

end Layout

namespace Generation.Workshop

open Declaration (MessageFile ServiceFile)

def withParallel (workshop : Workshop) (parallel : Bool) : Workshop :=
  { workshop with options := { workshop.options with parallel } }

private theorem output_withParallel (workshop : Workshop) (parallel : Bool) :
    (workshop.withParallel parallel).output = workshop.output := by
  funext file
  refine output_congr (MessageFile.ofSchema_congr (fun _ _ => rfl) rfl rfl) ?_
  exact ServiceFile.ofSchema_congr (fun _ _ _ _ => rfl) rfl rfl

private theorem output_notCancelled (workshop : Workshop) (file : Schema.File) :
    FailsOnly Fault.NotCancelled (workshop.output file).result := by
  have untypable {α : Type} {result : Except Fault α}
      (fails : FailsOnly (Fault.Untypable fun _ => True) result) :
      FailsOnly Fault.NotCancelled (Fault.located (.file file.path) result) :=
    (Fault.untypable_located (fun _ _ => trivial) fails).mono fun _ => Fault.Untypable.notCancelled
  simp only [output, Traced.result_bind, Traced.result_emit, Traced.result_ofResult,
    Traced.result_pure, pure_bind]
  refine .bind (untypable (MessageFile.ofSchema_fails _ _ fun _ _ => trivial)) fun messages _ => ?_
  refine .bind (Layout.renderMessages_notCancelled messages) fun _ _ => ?_
  refine .bind (untypable (ServiceFile.ofSchema_fails _ _ fun _ _ => trivial)) fun services _ => ?_
  refine .bind ?_ fun _ _ => Result.failsOnly_pure _
  cases services with
  | none => exact Result.failsOnly_ok _
  | some model =>
    simp only [serviceOutput, Traced.result_bind, Traced.result_emit, Traced.result_ofResult,
      Traced.result_pure, pure_bind]
    exact .bind (Layout.renderServices_notCancelled model) fun _ _ => Result.failsOnly_pure _

private theorem result_generate_sequential {workshop : Workshop} {schedule : Nat → List GroupStep}
    {files : List Schema.File} {response : Response} :
    ((workshop.withParallel false).generate schedule files).result = .ok response ↔ ∃ outputs,
      Group.inTurn (files.map workshop.output) = .ok outputs ∧
        Response.ofFiles outputs = response := by
  have sequential : (workshop.withParallel false).Finishes schedule files := by
    intro parallel
    cases parallel
  rw [result_generate_eq_ok sequential, output_withParallel]

/-- Every beginning of the parallel work can be brought to its end, and whenever it has come there,
parallel and sequential work agree. -/
theorem generate_withParallel (workshop : Workshop) (files : List Schema.File) :
    (∀ begun, ∃ rest, workshop.Completes files (begun ++ rest)) ∧
    ∀ schedule : Nat → List GroupStep, workshop.Completes files (schedule files.length) →
      (∀ response, ((workshop.withParallel true).generate schedule files).result = .ok response ↔
        ((workshop.withParallel false).generate schedule files).result = .ok response) ∧
      ∀ fault, ((workshop.withParallel true).generate schedule files).result = .error fault →
        fault.NotCancelled ∧ ∃ file ∈ files, (workshop.output file).result = .error fault := by
  refine ⟨Group.exists_isOver _, fun schedule complete => ⟨fun response => ?_, ?_⟩⟩
  · have completeToo : (workshop.withParallel true).Completes files (schedule files.length) := by
      rwa [Completes, output_withParallel]
    rw [result_generate_eq_ok fun _ => completeToo, result_generate_sequential,
      output_withParallel]
  · intro fault failed
    rw [result_generate, Result.map_eq_error] at failed
    obtain ⟨file, member, fileFailed⟩ := result_outputsUnder_eq_error failed
    rw [output_withParallel] at fileFailed
    exact ⟨workshop.output_notCancelled file fault fileFailed, file, member, fileFailed⟩

/-- A file with a field whose type is declared nowhere. -/
def strayFile : Schema.File where
  path := "stray.proto"
  messages := [{
    name := "Stray"
    fields := [{ name := "gone", kind := .message, typeName := ".Gone" }] }]

def plainFile : Schema.File where
  path := "plain.proto"
  messages := [{ name := "Plain" }]

/-- The second of three tasks fails while the first is working and before the third has looked
whether to go on. -/
def strayFirst : List GroupStep :=
  [.start 0, .start 1, .start 2, .check 0, .check 1, .work 1, .finish 1, .cancel, .check 2,
    .finish 2, .work 0, .finish 0]

theorem generate_withParallel_stray :
    let workshop : Workshop := ⟨{}, {}⟩
    let files := [plainFile, strayFile, plainFile]
    workshop.Completes files strayFirst ∧ ∃ fault,
      ((workshop.withParallel true).generate (fun _ => strayFirst) files).result = .error fault ∧
      fault.NotCancelled ∧ ∃ file ∈ files, (workshop.output file).result = .error fault := by
  intro workshop files
  have complete : workshop.Completes files strayFirst := by decide +kernel
  have agree := (workshop.generate_withParallel files).2 (fun _ => strayFirst) complete
  refine ⟨complete, ?_⟩
  cases ended : ((workshop.withParallel true).generate (fun _ => strayFirst) files).result with
  | error fault => exact ⟨fault, rfl, agree.2 fault ended⟩
  | ok response =>
    have strayFails : (workshop.output strayFile).result = .error (.within (.file "stray.proto")
        (.within (.message "Stray")
          (.within (.field "gone") (.unresolved ".Gone" "stray.proto")))) := rfl
    have member : workshop.output strayFile ∈ files.map workshop.output :=
      List.mem_map_of_mem (by simp [files])
    obtain ⟨outputs, made, -⟩ := result_generate_sequential.mp ((agree.1 response).mp ended)
    exact absurd made (Group.inTurn_ne_ok member strayFails outputs)

end Generation.Workshop

end ProtoTypings
