import ProtoTypings.CommandLine.Program
import ProtoTypings.Proofs.Run

set_option autoImplicit false
set_option relaxedAutoImplicit false

/-!
The plugin as a command: what it writes, what it reports, and how its status tells that. The status
is right for every request but one that asks for help in its parameter, where a failed run ends with
status 0 and help on the output that a response belongs to.
-/

namespace ProtoTypings

namespace Generation

theorem deliver_cases (schedule : Nat → List GroupStep) (input : Text) (environment : Environment) :
    (∃ response, (runUnder schedule input environment).result = .ok response ∧
      (deliver schedule input environment).run.result = .ok () ∧
      (deliver schedule input environment).written = response.write) ∨
    ∃ fault, (runUnder schedule input environment).result = .error fault ∧
      (deliver schedule input environment).run.result = .error fault ∧
      (deliver schedule input environment).written = [] := by
  cases run : (runUnder schedule input environment).result with
  | ok response => exact Or.inl ⟨response, rfl, by simp [deliver, run], by simp [deliver, run]⟩
  | error fault => exact Or.inr ⟨fault, rfl, by simp [deliver, run], by simp [deliver, run]⟩

theorem name_mem_of_mem_runFaultKinds {kind : FaultKind} (member : kind ∈ runFaultKinds) :
    kind.name ∈
      (["malformed request", "unresolved reference", "unsupported field kind"] : List Text) := by
  simp only [runFaultKinds, List.mem_cons, List.not_mem_nil, or_false] at member
  rcases member with rfl | rfl | rfl <;> decide

end Generation

namespace CommandLine

open Generation (GroupStep deliver HelpAsked)

/-- The plugin cannot do its work: the verbosity cannot be read, or the run fails. -/
def PluginFails (schedule : Nat → List GroupStep) (world : World) : Prop :=
  (∃ fault, world.environment.verbosity = .error fault) ∨
    ∃ fault, (deliver schedule world.input world.environment).run.result = .error fault

/-- Without arguments the program ends with status 1 and prints nothing exactly if the plugin fails,
and with status 0 otherwise. -/
def StatusTellsFailure (schedule : Nat → List GroupStep) (world : World) : Prop :=
  ((executeUnder schedule world []).status = 1 ∧ (executeUnder schedule world []).output.bytes = [] ↔
    PluginFails schedule world) ∧
  (¬PluginFails schedule world → (executeUnder schedule world []).status = 0)

/-- The plugin gets to a call for help in the parameter of its request. -/
def MeetsHelp (world : World) : Prop :=
  (∃ verbosity, world.environment.verbosity = .ok verbosity) ∧
    HelpAsked world.input world.environment

/-- The ways in which the plugin ends, as far as status and output are concerned. -/
inductive Ending (schedule : Nat → List GroupStep) (world : World) (outcome : Outcome) : Prop where
  | unreadable (fault : Fault) (reading : world.environment.verbosity = .error fault)
      (status : outcome.status = 1) (output : outcome.output = .nothing)
  | delivered (verbosity : Int) (reading : world.environment.verbosity = .ok verbosity)
      (run : (deliver schedule world.input world.environment).run.result = .ok ())
      (status : outcome.status = 0)
  | failed (fault : Fault) (noHelp : fault.asksForHelp = false)
      (run : (deliver schedule world.input world.environment).run.result = .error fault)
      (status : outcome.status = 1) (output : outcome.output = .nothing)
  | helped (verbosity : Int) (reading : world.environment.verbosity = .ok verbosity)
      (fault : Fault) (help : fault.asksForHelp = true)
      (run : (deliver schedule world.input world.environment).run.result = .error fault)
      (status : outcome.status = 0) (output : outcome.output = .help .plugin)

private theorem executeUnder_ending (schedule : Nat → List GroupStep) (world : World) :
    Ending schedule world (executeUnder schedule world []) := by
  have plugin : executeUnder schedule world [] = runPlugin schedule world := rfl
  rw [plugin, runPlugin]
  cases reading : world.environment.verbosity with
  | error fault => exact .unreadable fault reading rfl rfl
  | ok verbosity =>
    simp only [Outcome.ofTraced]
    cases run : (deliver schedule world.input world.environment).run.result with
    | ok done => exact .delivered verbosity reading run rfl
    | error fault =>
      cases help : fault.asksForHelp with
      | true => exact .helped verbosity reading fault help run (by simp [help]) (by simp [help])
      | false => exact .failed fault help run (by simp [help]) (by simp [help])

private theorem asksForHelp_iff {schedule : Nat → List GroupStep} {input : Text}
    {environment : Environment} {fault : Fault}
    (failed : (deliver schedule input environment).run.result = .error fault) :
    fault.asksForHelp = true ↔ HelpAsked input environment := by
  rcases Generation.deliver_cases schedule input environment with
    ⟨response, -, run, -⟩ | ⟨other, run, delivered, -⟩
  · exact absurd (run.symm.trans failed) (by simp)
  · obtain rfl := Except.error.inj (delivered.symm.trans failed)
    exact (Generation.runUnder_fails schedule input environment other run).2

private theorem deliver_of_helpAsked (schedule : Nat → List GroupStep) {input : Text}
    {environment : Environment} (asked : HelpAsked input environment) :
    ∃ fault, (deliver schedule input environment).run.result = .error fault := by
  obtain ⟨fault, run⟩ := Generation.runUnder_of_helpAsked schedule asked
  exact ⟨fault, by simp [deliver, run]⟩

private theorem statusTellsFailure_iff (schedule : Nat → List GroupStep) (world : World) :
    StatusTellsFailure schedule world ↔ ¬MeetsHelp world := by
  unfold StatusTellsFailure
  cases executeUnder_ending schedule world with
  | unreadable fault reading status output =>
    have fails : PluginFails schedule world := Or.inl ⟨fault, reading⟩
    have noHelp : ¬MeetsHelp world := by
      rintro ⟨⟨verbosity, readable⟩, -⟩
      exact absurd (reading.symm.trans readable) (by simp)
    simp [status, output, Output.bytes, fails, noHelp]
  | delivered verbosity reading run status =>
    have works : ¬PluginFails schedule world := by
      rintro (⟨fault, unreadable⟩ | ⟨fault, failed⟩)
      · exact absurd (reading.symm.trans unreadable) (by simp)
      · exact absurd (run.symm.trans failed) (by simp)
    have noHelp : ¬MeetsHelp world := by
      rintro ⟨-, asked⟩
      obtain ⟨fault, failed⟩ := deliver_of_helpAsked schedule asked
      exact absurd (run.symm.trans failed) (by simp)
    simp [status, works, noHelp]
  | failed fault noHelp run status output =>
    have fails : PluginFails schedule world := Or.inr ⟨fault, run⟩
    have unasked : ¬MeetsHelp world := by
      rintro ⟨-, asked⟩
      simp [(asksForHelp_iff run).mpr asked] at noHelp
    simp [status, output, Output.bytes, fails, unasked]
  | helped verbosity reading fault help run status output =>
    have fails : PluginFails schedule world := Or.inr ⟨fault, run⟩
    have asked : MeetsHelp world := ⟨⟨verbosity, reading⟩, (asksForHelp_iff run).mp help⟩
    simp [status, fails, asked]

private theorem executeUnder_of_meetsHelp (schedule : Nat → List GroupStep) {world : World}
    (meets : MeetsHelp world) :
    (executeUnder schedule world []).status = 0 ∧
      (executeUnder schedule world []).output = .help .plugin := by
  obtain ⟨⟨verbosity, readable⟩, asked⟩ := meets
  cases executeUnder_ending schedule world with
  | unreadable fault reading => exact absurd (reading.symm.trans readable) (by simp)
  | delivered _ _ run =>
    obtain ⟨fault, failed⟩ := deliver_of_helpAsked schedule asked
    exact absurd (run.symm.trans failed) (by simp)
  | failed fault noHelp run => exact absurd ((asksForHelp_iff run).mpr asked) (by simp [noHelp])
  | helped _ _ fault help run status output => exact ⟨status, output⟩

/-- Every run writes the whole response or nothing, and fails only with a kind of failure that names
a flaw of the request; all declarations made for it can be laid out. The status of the program tells
whether the plugin failed, except where the parameter asks for help: then the program ends with
status 0 and prints help. -/
theorem plugin_all_or_nothing (schedule : Nat → List GroupStep) (world : World) :
    ((∃ request options workshop response,
        Request.ofBytes world.input = .ok request ∧
        request.options world.environment = .ok options ∧
        (Generation.Workshop.ofFiles request.files options).result = .ok workshop ∧
        (workshop.generate schedule request.toGenerate).result = .ok response ∧
        (deliver schedule world.input world.environment).run.result = .ok () ∧
        (deliver schedule world.input world.environment).written = response.write) ∨
      ∃ fault, (deliver schedule world.input world.environment).run.result = .error fault ∧
        (deliver schedule world.input world.environment).written = [] ∧
        fault.kind.name ∈
          (["malformed request", "unresolved reference", "unsupported field kind"] : List Text)) ∧
    (∀ request, Request.ofBytes world.input = .ok request → ∀ file ∈ request.files,
      ∀ table options,
        (∀ model, Declaration.MessageFile.ofSchema file table options = .ok model →
          ∃ text, Layout.renderMessages model = .ok text) ∧
        ∀ model, Declaration.ServiceFile.ofSchema file table options = .ok (some model) →
          ∃ text, Layout.renderServices model = .ok text) ∧
    (StatusTellsFailure schedule world ↔ ¬MeetsHelp world) ∧
    (MeetsHelp world → (executeUnder schedule world []).status = 0 ∧
      (executeUnder schedule world []).output = .help .plugin) := by
  refine ⟨?_, ?_, statusTellsFailure_iff schedule world, executeUnder_of_meetsHelp schedule⟩
  · rcases Generation.deliver_cases schedule world.input world.environment with
      ⟨response, run, delivered, written⟩ | ⟨fault, run, delivered, written⟩
    · rw [Generation.result_runUnder] at run
      obtain ⟨request, read, run⟩ := Result.bind_eq_ok.mp run
      obtain ⟨options, accepted, run⟩ := Result.bind_eq_ok.mp run
      obtain ⟨workshop, built, generated⟩ := Result.bind_eq_ok.mp run
      exact Or.inl ⟨request, options, workshop, response, read, accepted, built, generated,
        delivered, written⟩
    · have kind := (Generation.runUnder_fails schedule world.input world.environment fault run).1
      exact Or.inr ⟨fault, delivered, written, Generation.name_mem_of_mem_runFaultKinds kind⟩
  · intro request read file member table options
    have named := (Request.files_of_ofBytes read).1 file member
    exact ⟨fun _ => Layout.renderMessages_ok named, fun _ => Layout.renderServices_ok named⟩

/-- A request with nothing but the parameter `help`, in an empty environment. -/
def helpWorld : World where
  environment := fun _ => none
  input := [18, 4, 104, 101, 108, 112]
  openFile := fun _ => none

/-- The status does not tell that the run failed. -/
theorem not_statusTellsFailure_helpWorld :
    ¬StatusTellsFailure Generation.inOrder helpWorld := by
  rw [statusTellsFailure_iff, not_not]
  have read : Request.ofBytes helpWorld.input = .ok { parameter := "help" } := by
    with_unfolding_all rfl
  have asked : Options.ofParameter (fun _ => none) "help" = .error .helpRequested := by
    decide +kernel
  exact ⟨⟨0, rfl⟩, _, read, asked⟩

end CommandLine

end ProtoTypings
