import ProtoTypings.Proofs.Change
import ProtoTypings.Proofs.Request
import ProtoTypings.Proofs.Run

set_option autoImplicit false
set_option relaxedAutoImplicit false

/-!
The generated files of several schema files. However they are made, one after the other or under a
schedule that brings all tasks to their end, a success hands over the same files in the same order.
-/

namespace ProtoTypings.Generation

namespace Group

@[simp] theorem inTurn_nil : inTurn [] = .ok [] := rfl

theorem inTurn_cons (job : Traced (List OutputFile)) (rest : List (Traced (List OutputFile))) :
    inTurn (job :: rest) = (do
      let first ← job.result
      let more ← inTurn rest
      return first ++ more) := by
  rw [inTurn, inTurn, List.mapM_cons]
  cases job.result with
  | error fault => rfl
  | ok first => cases rest.mapM Traced.result <;> rfl

theorem inTurn_append_eq_ok {before after : List (Traced (List OutputFile))}
    {outputs : List OutputFile} :
    inTurn (before ++ after) = .ok outputs ↔ ∃ first second,
      inTurn before = .ok first ∧ inTurn after = .ok second ∧ outputs = first ++ second := by
  induction before generalizing outputs with
  | nil => simp [eq_comm]
  | cons job rest ih =>
    simp only [List.cons_append, inTurn_cons, Result.bind_eq_ok, Result.pure_eq_ok, ih]
    constructor
    · rintro ⟨own, worked, more, ⟨first, second, restWorked, afterWorked, rfl⟩, rfl⟩
      exact ⟨own ++ first, second, ⟨own, worked, first, restWorked, rfl⟩, afterWorked,
        (List.append_assoc own first second).symm⟩
    · rintro ⟨_, second, ⟨own, worked, first, restWorked, rfl⟩, afterWorked, rfl⟩
      exact ⟨own, worked, first ++ second, ⟨first, second, restWorked, afterWorked, rfl⟩,
        (List.append_assoc own first second).symm⟩

end Group

namespace Workshop

open Declaration (MessageFile ServiceFile)

variable {workshop workshop' : Workshop} {file : Schema.File} {files : List Schema.File}

theorem output_congr
    (messages : MessageFile.ofSchema file workshop.table workshop.options =
      MessageFile.ofSchema file workshop'.table workshop'.options)
    (services : ServiceFile.ofSchema file workshop.table workshop.options =
      ServiceFile.ofSchema file workshop'.table workshop'.options) :
    workshop.output file = workshop'.output file := by
  rw [output, output, messages, services]

theorem result_outputs (workshop : Workshop) (files : List Schema.File) :
    (workshop.outputs files).result = Group.inTurn (files.map workshop.output) := by
  induction files with
  | nil => rfl
  | cons file rest ih =>
    simp only [outputs, Traced.result_bind, Traced.result_pure, ih, List.map_cons,
      Group.inTurn_cons]

/-- A schedule that brings the work on all files to its end. -/
def Completes (workshop : Workshop) (files : List Schema.File) (schedule : List GroupStep) : Prop :=
  (Group.run (files.map workshop.output) schedule).isOver = true

instance (workshop : Workshop) (files : List Schema.File) (schedule : List GroupStep) :
    Decidable (workshop.Completes files schedule) :=
  inferInstanceAs (Decidable (_ = true))

private theorem result_outputsUnder_eq_ok {schedule : List GroupStep}
    (complete : workshop.Completes files schedule) {outputs : List OutputFile} :
    (workshop.outputsUnder schedule files).result = .ok outputs ↔
      Group.inTurn (files.map workshop.output) = .ok outputs := by
  have sound := Group.sound_run (files.map workshop.output) schedule
  rw [← sound.result_eq_ok_iff complete, outputsUnder]
  cases (Group.run (files.map workshop.output) schedule).result <;> simp

theorem result_outputsUnder_eq_error {schedule : List GroupStep} {fault : Fault}
    (failed : (workshop.outputsUnder schedule files).result = .error fault) :
    ∃ file ∈ files, (workshop.output file).result = .error fault := by
  have sound := Group.sound_run (files.map workshop.output) schedule
  rw [outputsUnder] at failed
  split at failed
  · cases failed
  · rename_i failure groupFailed
    obtain ⟨job, member, cause, jobFailed, rfl⟩ := sound.result_eq_error groupFailed
    obtain ⟨file, fileMember, rfl⟩ := List.mem_map.mp member
    obtain rfl := Except.error.inj failed
    exact ⟨file, fileMember, jobFailed⟩

theorem result_generate (workshop : Workshop) (schedule : Nat → List GroupStep)
    (files : List Schema.File) :
    (workshop.generate schedule files).result =
      (workshop.allOutputs schedule files).result.map Response.ofFiles := by
  simp only [generate, Traced.result_bind, Traced.result_onFailure, Traced.result_emit,
    Traced.result_pure, pure_bind]
  cases (workshop.allOutputs schedule files).result <;> rfl

/-- A generator whose work on the files comes to its end under the schedule. -/
def Finishes (workshop : Workshop) (schedule : Nat → List GroupStep)
    (files : List Schema.File) : Prop :=
  workshop.options.parallel = true → workshop.Completes files (schedule files.length)

/-- What a generator hands over does not depend on how the work is organised. -/
theorem result_generate_eq_ok {schedule : Nat → List GroupStep} {response : Response}
    (finishes : workshop.Finishes schedule files) :
    (workshop.generate schedule files).result = .ok response ↔ ∃ outputs,
      Group.inTurn (files.map workshop.output) = .ok outputs ∧
        Response.ofFiles outputs = response := by
  rw [result_generate, Result.map_eq_ok, allOutputs]
  split
  · rename_i parallel
    simp only [result_outputsUnder_eq_ok (finishes parallel)]
  · rw [result_outputs]

end Workshop

/-- A run whose work, should it come to that, comes to its end under the schedule. -/
def RunFinishes (schedule : Nat → List GroupStep) (input : Text) (environment : Environment) :
    Prop :=
  ∀ request options workshop, Request.ofBytes input = .ok request →
    request.options environment = .ok options →
    (Workshop.ofFiles request.files options).result = .ok workshop →
    workshop.Finishes schedule request.toGenerate

theorem Workshop.result_ofFiles_eq_ok {files : List Schema.File} {options : Options}
    {workshop : Workshop} : (ofFiles files options).result = .ok workshop ↔
      ∃ table, SymbolTable.ofFiles options.importStyle files = .ok table ∧
        workshop = ⟨table, options⟩ := by
  simp only [ofFiles, Traced.result_onFailure, Traced.result_bind, Traced.result_emit,
    Traced.result_ofResult, Traced.result_pure, pure_bind, Result.bind_eq_ok, Result.located_eq_ok,
    Result.pure_eq_ok, @eq_comm _ workshop]

theorem result_runUnder_eq_ok {schedule : Nat → List GroupStep} {input : Text}
    {environment : Environment} (finishes : RunFinishes schedule input environment)
    {response : Response} :
    (runUnder schedule input environment).result = .ok response ↔
      ∃ request options table outputs, Request.ofBytes input = .ok request ∧
        request.options environment = .ok options ∧
        SymbolTable.ofFiles options.importStyle request.files = .ok table ∧
        Group.inTurn (request.toGenerate.map (Workshop.output ⟨table, options⟩)) = .ok outputs ∧
        Response.ofFiles outputs = response := by
  simp only [result_runUnder, Result.bind_eq_ok, Workshop.result_ofFiles_eq_ok]
  constructor
  · rintro ⟨request, read, options, accepted, workshop, ⟨table, built, rfl⟩, generated⟩
    have complete := finishes request options ⟨table, options⟩ read accepted
      (Workshop.result_ofFiles_eq_ok.mpr ⟨table, built, rfl⟩)
    obtain ⟨outputs, worked, handedOver⟩ := (Workshop.result_generate_eq_ok complete).mp generated
    exact ⟨request, options, table, outputs, read, accepted, built, worked, handedOver⟩
  · rintro ⟨request, options, table, outputs, read, accepted, built, worked, handedOver⟩
    have complete := finishes request options ⟨table, options⟩ read accepted
      (Workshop.result_ofFiles_eq_ok.mpr ⟨table, built, rfl⟩)
    exact ⟨request, read, options, accepted, ⟨table, options⟩, ⟨table, built, rfl⟩,
      (Workshop.result_generate_eq_ok complete).mpr ⟨outputs, worked, handedOver⟩⟩

/-- A run whose options do not ask for work on all files at the same time. -/
def Sequential (input : Text) (environment : Environment) : Prop :=
  ∀ request options, Request.ofBytes input = .ok request →
    request.options environment = .ok options → options.parallel = false

theorem sequential_of_parallel_eq {input : Text} {environment : Environment}
    (switched : ((Request.ofBytes input >>= fun request => request.options environment).map
      Options.parallel) = .ok false) : Sequential input environment := by
  intro request options read accepted
  rw [read] at switched
  change (request.options environment).map Options.parallel = .ok false at switched
  rw [accepted] at switched
  exact Except.ok.inj switched

theorem Sequential.runFinishes {input : Text} {environment : Environment}
    (sequential : Sequential input environment) (schedule : Nat → List GroupStep) :
    RunFinishes schedule input environment := by
  intro request options workshop read accepted built parallel
  obtain ⟨table, -, rfl⟩ := Workshop.result_ofFiles_eq_ok.mp built
  exact absurd (parallel.symm.trans (sequential request options read accepted)) (by decide)

end ProtoTypings.Generation
