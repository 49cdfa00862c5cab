import ProtoTypings.Proofs.Inspection
import ProtoTypings.Proofs.Parallel

set_option autoImplicit false
set_option relaxedAutoImplicit false

/-!
The states of a run. Work on a file goes through three or four states or breaks off in one of two,
work on several files stops at the first that breaks off, and a run enters `done` or `failed` last
and then logs nothing more. The state of a generator tells how its latest work has ended.
-/

namespace ProtoTypings

/-- What an entry on a state tells: the schema file it is about, if any, and the state. -/
def Log.Entry.state? (entry : Entry) : Option (Option Value × Value) :=
  if entry.message = Text.ofString "entering state" then
    (entry.pairs.lookup (Text.ofString "state")).map fun state =>
      (entry.pairs.lookup (Text.ofString "file"), state)
  else none

namespace Generation

open Declaration (MessageFile ServiceFile)

/-- What a state is called in the log. -/
def State.loggedName : State → Text
  | .idle => "Idle"
  | .parsingRequest => "ParsingRequest"
  | .buildingSymbolTable => "BuildingSymbolTable"
  | .formattingMessages => "FormattingMessages"
  | .renderingMessages => "RenderingMessages"
  | .formattingServices => "FormattingServices"
  | .renderingServices => "RenderingServices"
  | .assemblingResponse => "AssemblingResponse"
  | .done => "Done"
  | .failed => "Failed"

private theorem State.name_eq_loggedName (state : State) : state.name = state.loggedName := by
  cases state <;> rfl

/-- A state that is entered, for the whole run or for a schema file. -/
structure Step where
  file : Option Text
  state : State
  deriving DecidableEq, Repr

namespace Step

def ofRun (state : State) : Step := ⟨none, state⟩

def on (file : Schema.File) (state : State) : Step := ⟨some file.path, state⟩

def shown (step : Step) : Option Log.Value × Log.Value :=
  (step.file.map .text, .text step.state.loggedName)

end Step

def Event.step? : Event → Option Step
  | .entered state => some ⟨none, state⟩
  | .enteredFor file state => some ⟨some file, state⟩
  | .builtTable _ _ | .skippedServices _ => none

/-- The entries that are logged for some events. -/
def logged (verbosity : Int) (events : List Event) : List Log.Entry :=
  (events.map Event.entry).filter (·.isWritten verbosity)

private theorem logged_one (events : List Event) : logged 1 events = events.map Event.entry := by
  refine List.filter_eq_self.mpr fun entry member => ?_
  obtain ⟨event, -, rfl⟩ := List.mem_map.mp member
  cases event <;> rfl

private theorem state?_entry (event : Event) : event.entry.state? = event.step?.map Step.shown := by
  cases event with
  | entered state | enteredFor file state => rw [Event.entry, state.name_eq_loggedName]; rfl
  | builtTable | skippedServices => rfl

private theorem filterMap_state?_logged (events : List Event) :
    (logged 1 events).filterMap Log.Entry.state? =
      (events.filterMap Event.step?).map Step.shown := by
  rw [logged_one, List.filterMap_map, List.map_filterMap]
  exact List.filterMap_congr fun event _ => state?_entry event

namespace Traced

variable {α β : Type}

def steps (computation : Traced α) : List Step := computation.events.filterMap Event.step?

private theorem emit_bind (event : Event) (next : Unit → Traced β) :
    (emit event >>= next) = ⟨event :: (next ()).events, (next ()).result⟩ := rfl

private theorem ofResult_ok_bind (a : α) (next : α → Traced β) :
    (ofResult (.ok a) >>= next) = next a := rfl

private theorem ofResult_error_bind (fault : Fault) (next : α → Traced β) :
    (ofResult (.error fault) >>= next) = ⟨[], .error fault⟩ := rfl

private theorem bind_of_ok {first : Traced α} {a : α} (ended : first.result = .ok a)
    (next : α → Traced β) :
    (first >>= next) = ⟨first.events ++ (next a).events, (next a).result⟩ := by
  change Traced.bind first next = _
  rw [Traced.bind, ended]

private theorem bind_of_error {first : Traced α} {fault : Fault}
    (ended : first.result = .error fault)
    (next : α → Traced β) : (first >>= next) = ⟨first.events, .error fault⟩ := by
  change Traced.bind first next = _
  rw [Traced.bind, ended]

private theorem steps_bind_of_ok {first : Traced α} {a : α} (ended : first.result = .ok a)
    (next : α → Traced β) : (first >>= next).steps = first.steps ++ (next a).steps := by
  rw [bind_of_ok ended, steps, List.filterMap_append]
  rfl

private theorem steps_bind_pure (computation : Traced α) (f : α → β) :
    (computation >>= fun a => pure (f a)).steps = computation.steps := by
  cases ended : computation.result with
  | error fault =>
    rw [bind_of_error ended]
    rfl
  | ok a =>
    rw [steps_bind_of_ok ended]
    exact List.append_nil _

private theorem isOk_bind_pure (computation : Traced α) (f : α → β) :
    (computation >>= fun a => pure (f a)).result.isOk = computation.result.isOk := by
  rw [result_bind]
  cases computation.result <;> rfl

private theorem onFailure_of_ok {computation : Traced α} {a : α}
    (ended : computation.result = .ok a)
    (event : Event) : onFailure event computation = computation := by
  rw [onFailure, ended]

private theorem onFailure_of_error {computation : Traced α} {fault : Fault}
    (ended : computation.result = .error fault) (event : Event) :
    onFailure event computation = ⟨computation.events ++ [event], .error fault⟩ := by
  rw [onFailure, ended]

end Traced

/-- The states of work on a schema file: all of them, or those up to the one it breaks off in. -/
inductive FileCourse (workshop : Workshop) (file : Schema.File) :
    (complete : Bool) → List State → Prop
  | served {messages : MessageFile} {services : Option ServiceFile}
      (messagesMade : MessageFile.ofSchema file workshop.table workshop.options = .ok messages)
      (servicesMade : ServiceFile.ofSchema file workshop.table workshop.options = .ok services)
      (declared : file.services ≠ []) :
      FileCourse workshop file true
        [.formattingMessages, .renderingMessages, .formattingServices, .renderingServices]
  | unserved {messages : MessageFile} {services : Option ServiceFile}
      (messagesMade : MessageFile.ofSchema file workshop.table workshop.options = .ok messages)
      (servicesMade : ServiceFile.ofSchema file workshop.table workshop.options = .ok services)
      (undeclared : file.services = []) :
      FileCourse workshop file true [.formattingMessages, .renderingMessages, .formattingServices]
  | withoutMessages {fault : Fault}
      (failed : MessageFile.ofSchema file workshop.table workshop.options = .error fault) :
      FileCourse workshop file false [.formattingMessages]
  | withoutServices {messages : MessageFile} {fault : Fault}
      (messagesMade : MessageFile.ofSchema file workshop.table workshop.options = .ok messages)
      (failed : ServiceFile.ofSchema file workshop.table workshop.options = .error fault) :
      FileCourse workshop file false [.formattingMessages, .renderingMessages, .formattingServices]

/-- The steps of work on several schema files, of which the last may break off. -/
inductive FilesCourse (workshop : Workshop) :
    List Schema.File → (complete : Bool) → List Step → Prop
  | nil : FilesCourse workshop [] true []
  | cons {file : Schema.File} {rest : List Schema.File} {complete : Bool} {states : List State}
      {steps : List Step} (first : FileCourse workshop file true states)
      (more : FilesCourse workshop rest complete steps) :
      FilesCourse workshop (file :: rest) complete (states.map (Step.on file) ++ steps)
  | broken {file : Schema.File} {rest : List Schema.File} {states : List State}
      (first : FileCourse workshop file false states) :
      FilesCourse workshop (file :: rest) false (states.map (Step.on file))

/-- The steps of a run on an input, and the state that it ends in. -/
inductive RunCourse (input : Text) (environment : Environment) : (final : State) → List Step → Prop
  | unparsed {fault : Fault}
      (failed : (Request.ofBytes input >>= fun request => request.options environment) =
        .error fault) :
      RunCourse input environment .failed
        ([.idle, .parsingRequest, .failed].map Step.ofRun)
  | clashing {request : Request} {options : Options} {fault : Fault}
      (read : Request.ofBytes input = .ok request)
      (accepted : request.options environment = .ok options)
      (failed : SymbolTable.ofFiles options.importStyle request.files = .error fault) :
      RunCourse input environment .failed
        ([.idle, .parsingRequest, .buildingSymbolTable, .failed].map Step.ofRun)
  | broken {request : Request} {options : Options} {table : SymbolTable} {steps : List Step}
      (read : Request.ofBytes input = .ok request)
      (accepted : request.options environment = .ok options)
      (built : SymbolTable.ofFiles options.importStyle request.files = .ok table)
      (course : FilesCourse ⟨table, options⟩ request.toGenerate false steps) :
      RunCourse input environment .failed
        ([.idle, .parsingRequest, .buildingSymbolTable].map Step.ofRun ++ steps ++
          [.failed].map Step.ofRun)
  | complete {request : Request} {options : Options} {table : SymbolTable} {steps : List Step}
      (read : Request.ofBytes input = .ok request)
      (accepted : request.options environment = .ok options)
      (built : SymbolTable.ofFiles options.importStyle request.files = .ok table)
      (course : FilesCourse ⟨table, options⟩ request.toGenerate true steps) :
      RunCourse input environment .done
        ([.idle, .parsingRequest, .buildingSymbolTable].map Step.ofRun ++ steps ++
          [.assemblingResponse, .done].map Step.ofRun)

namespace Workshop

variable {workshop : Workshop} {file : Schema.File} {messages : MessageFile} {content : Text}

/-! Work on a file, in each of the ways that it can go. -/

private theorem output_withoutMessages {fault : Fault}
    (failed : MessageFile.ofSchema file workshop.table workshop.options = .error fault) :
    workshop.output file =
      ⟨[.enteredFor file.path .formattingMessages],
        .error (.within (.file file.path) fault)⟩ := by
  rw [output, failed]
  rfl

section

variable (messagesMade : MessageFile.ofSchema file workshop.table workshop.options = .ok messages)
  (rendered : Layout.renderMessages messages = .ok content)
include messagesMade rendered

private theorem output_withoutServices {fault : Fault}
    (failed : ServiceFile.ofSchema file workshop.table workshop.options = .error fault) :
    workshop.output file =
      ⟨[.enteredFor file.path .formattingMessages, .enteredFor file.path .renderingMessages,
          .enteredFor file.path .formattingServices],
        .error (.within (.file file.path) fault)⟩ := by
  simp only [output, messagesMade, rendered, failed, Fault.located, Traced.emit_bind,
    Traced.ofResult_ok_bind, Traced.ofResult_error_bind]

private theorem output_unserved
    (servicesMade : ServiceFile.ofSchema file workshop.table workshop.options = .ok none) :
    workshop.output file =
      ⟨[.enteredFor file.path .formattingMessages, .enteredFor file.path .renderingMessages,
          .enteredFor file.path .formattingServices, .skippedServices file.path],
        .ok [⟨Path.messageFile file.path, content⟩]⟩ := by
  simp only [output, messagesMade, rendered, servicesMade, Fault.located, Traced.emit_bind,
    Traced.ofResult_ok_bind, serviceOutput]
  rfl

private theorem output_served {services : ServiceFile} {more : Text}
    (servicesMade : ServiceFile.ofSchema file workshop.table workshop.options = .ok (some services))
    (moreRendered : Layout.renderServices services = .ok more) :
    workshop.output file =
      ⟨[.enteredFor file.path .formattingMessages, .enteredFor file.path .renderingMessages,
          .enteredFor file.path .formattingServices, .enteredFor file.path .renderingServices],
        .ok [⟨Path.messageFile file.path, content⟩, ⟨Path.serviceFile file.path, more⟩]⟩ := by
  simp only [output, messagesMade, rendered, servicesMade, Fault.located, Traced.emit_bind,
    Traced.ofResult_ok_bind, serviceOutput, moreRendered]
  rfl

end

private theorem output_course (workshop : Workshop) (named : file.path ≠ []) :
    ∃ states, FileCourse workshop file (workshop.output file).result.isOk states ∧
      (workshop.output file).steps = states.map (Step.on file) := by
  cases messagesMade : MessageFile.ofSchema file workshop.table workshop.options with
  | error fault =>
    rw [output_withoutMessages messagesMade]
    exact ⟨_, .withoutMessages messagesMade, rfl⟩
  | ok messages =>
    obtain ⟨content, rendered⟩ := Layout.renderMessages_ok named messagesMade
    cases servicesMade : ServiceFile.ofSchema file workshop.table workshop.options with
    | error fault =>
      rw [output_withoutServices messagesMade rendered servicesMade]
      exact ⟨_, .withoutServices messagesMade servicesMade, rfl⟩
    | ok services =>
      have both : workshop.declarations file = .ok ⟨messages, services⟩ :=
        declarations_eq_ok.mpr ⟨messagesMade, servicesMade⟩
      have declared := isSome_services both
      cases services with
      | none =>
        rw [output_unserved messagesMade rendered servicesMade]
        have undeclared : file.services = [] := by simpa using declared
        exact ⟨_, .unserved messagesMade servicesMade undeclared, rfl⟩
      | some model =>
        obtain ⟨more, moreRendered⟩ := Layout.renderServices_ok named servicesMade
        rw [output_served messagesMade rendered servicesMade moreRendered]
        exact ⟨_, .served messagesMade servicesMade (declared.mp rfl), rfl⟩

private theorem outputs_course (workshop : Workshop) {files : List Schema.File}
    (named : ∀ file ∈ files, file.path ≠ []) :
    FilesCourse workshop files (workshop.outputs files).result.isOk
      (workshop.outputs files).steps := by
  induction files with
  | nil => exact .nil
  | cons file rest ih =>
    have more := ih fun other member => named other (List.mem_cons_of_mem file member)
    obtain ⟨states, first, steps⟩ := workshop.output_course (named file List.mem_cons_self)
    rw [outputs]
    cases worked : (workshop.output file).result with
    | error fault =>
      rw [worked] at first
      rw [Traced.bind_of_error worked]
      exact steps ▸ .broken first
    | ok own =>
      rw [worked] at first
      rw [Traced.steps_bind_of_ok worked, Traced.steps_bind_pure, Traced.bind_of_ok worked,
        Traced.isOk_bind_pure, steps]
      exact .cons first more

private theorem ofFiles_clashing {files : List Schema.File} {options : Options} {fault : Fault}
    (failed : SymbolTable.ofFiles options.importStyle files = .error fault) :
    ofFiles files options =
      ⟨[.entered .buildingSymbolTable, .entered .failed],
        .error (.within .symbolTable fault)⟩ := by
  rw [ofFiles, failed]
  rfl

private theorem ofFiles_built {files : List Schema.File} {options : Options} {table : SymbolTable}
    (built : SymbolTable.ofFiles options.importStyle files = .ok table) :
    ofFiles files options =
      ⟨[.entered .buildingSymbolTable, .builtTable files.length table.size],
        .ok ⟨table, options⟩⟩ := by
  rw [ofFiles, built]
  rfl

section

variable {schedule : Nat → List GroupStep} {files : List Schema.File}

private theorem generate_broken {fault : Fault}
    (failed : (workshop.allOutputs schedule files).result = .error fault) :
    workshop.generate schedule files =
      ⟨(workshop.allOutputs schedule files).events ++ [.entered .failed], .error fault⟩ := by
  rw [generate, Traced.onFailure_of_error failed]
  rfl

private theorem generate_complete {outputs : List OutputFile}
    (worked : (workshop.allOutputs schedule files).result = .ok outputs) :
    workshop.generate schedule files =
      ⟨(workshop.allOutputs schedule files).events ++
          [.entered .assemblingResponse, .entered .done],
        .ok (Response.ofFiles outputs)⟩ := by
  rw [generate, Traced.onFailure_of_ok worked, Traced.bind_of_ok worked]
  rfl

end

end Workshop

/-- The state that a computation of a run is left in. -/
def State.final {α : Type} : Except Fault α → State
  | .ok _ => .done
  | .error _ => .failed

private theorem parse_refused {input : Text} {environment : Environment} {fault : Fault}
    (failed : (Request.ofBytes input >>= fun request => request.options environment) =
      .error fault) :
    parse input environment =
      ⟨[.entered .idle, .entered .parsingRequest, .entered .failed], .error fault⟩ := by
  rw [parse]
  cases read : Request.ofBytes input with
  | error met =>
    rw [read] at failed
    obtain rfl := Except.error.inj failed
    rfl
  | ok request =>
    rw [read] at failed
    change request.options environment = .error fault at failed
    simp only [Traced.emit_bind, Traced.ofResult_ok_bind, failed, Traced.ofResult_error_bind]
    rfl

private theorem parse_accepted {input : Text} {environment : Environment} {request : Request}
    {options : Options} (read : Request.ofBytes input = .ok request)
    (accepted : request.options environment = .ok options) :
    parse input environment =
      ⟨[.entered .idle, .entered .parsingRequest], .ok (request, options)⟩ := by
  simp only [parse, read, Traced.emit_bind, Traced.ofResult_ok_bind, accepted]
  rfl

section

variable {schedule : Nat → List GroupStep} {input : Text} {environment : Environment}
  {request : Request} {options : Options}

private theorem runUnder_refused {fault : Fault}
    (failed : (Request.ofBytes input >>= fun request => request.options environment) =
      .error fault) :
    runUnder schedule input environment =
      ⟨[.entered .idle, .entered .parsingRequest, .entered .failed], .error fault⟩ := by
  rw [runUnder, parse_refused failed]
  rfl

variable (read : Request.ofBytes input = .ok request)
  (accepted : request.options environment = .ok options)
include read accepted

private theorem runUnder_clashing {fault : Fault}
    (failed : SymbolTable.ofFiles options.importStyle request.files = .error fault) :
    runUnder schedule input environment =
      ⟨[.entered .idle, .entered .parsingRequest, .entered .buildingSymbolTable, .entered .failed],
        .error (.within .symbolTable fault)⟩ := by
  rw [runUnder, parse_accepted read accepted, Traced.bind_of_ok rfl]
  dsimp only
  rw [Workshop.ofFiles_clashing failed]
  rfl

private theorem runUnder_built {table : SymbolTable}
    (built : SymbolTable.ofFiles options.importStyle request.files = .ok table) :
    runUnder schedule input environment =
      ⟨[.entered .idle, .entered .parsingRequest, .entered .buildingSymbolTable,
          .builtTable request.files.length table.size] ++
          (Workshop.generate ⟨table, options⟩ schedule request.toGenerate).events,
        (Workshop.generate ⟨table, options⟩ schedule request.toGenerate).result⟩ := by
  rw [runUnder, parse_accepted read accepted, Traced.bind_of_ok rfl]
  dsimp only
  rw [Workshop.ofFiles_built built]
  rfl

end

private theorem runUnder_course (schedule : Nat → List GroupStep) {input : Text}
    {environment : Environment} (sequential : Sequential input environment) :
    RunCourse input environment (State.final (runUnder schedule input environment).result)
        (runUnder schedule input environment).steps ∧
      (runUnder schedule input environment).events.getLast? =
        some (.entered (State.final (runUnder schedule input environment).result)) := by
  cases parsed : Request.ofBytes input >>= fun request => request.options environment with
  | error fault =>
    rw [runUnder_refused parsed]
    exact ⟨.unparsed parsed, rfl⟩
  | ok options =>
    obtain ⟨request, read, accepted⟩ := Result.bind_eq_ok.mp parsed
    cases built : SymbolTable.ofFiles options.importStyle request.files with
    | error fault =>
      rw [runUnder_clashing read accepted built]
      exact ⟨.clashing read accepted built, rfl⟩
    | ok table =>
      obtain ⟨named, chosen⟩ := Request.files_of_ofBytes read
      have course := Workshop.outputs_course ⟨table, options⟩
        fun file member => named file (chosen member)
      -- without parallel work the schedule is not looked at
      have inTurn : Workshop.allOutputs ⟨table, options⟩ schedule request.toGenerate =
          Workshop.outputs ⟨table, options⟩ request.toGenerate := by
        simp [Workshop.allOutputs, sequential request options read accepted]
      rw [runUnder_built read accepted built]
      cases worked : (Workshop.outputs ⟨table, options⟩ request.toGenerate).result with
      | error fault =>
        rw [worked] at course
        rw [Workshop.generate_broken (inTurn ▸ worked), inTurn, ← List.append_assoc]
        refine ⟨?_, List.getLast?_concat ..⟩
        rw [Traced.steps, List.filterMap_append, List.filterMap_append]
        exact .broken read accepted built course
      | ok outputs =>
        rw [worked] at course
        rw [Workshop.generate_complete (inTurn ▸ worked), inTurn, ← List.append_assoc]
        refine ⟨?_, List.getLast?_append ..⟩
        rw [Traced.steps, List.filterMap_append, List.filterMap_append]
        exact .complete read accepted built course

private theorem deliver_run (schedule : Nat → List GroupStep) (input : Text)
    (environment : Environment) : (deliver schedule input environment).run.events =
        (runUnder schedule input environment).events ∧
      State.final (deliver schedule input environment).run.result =
        State.final (runUnder schedule input environment).result := by
  rw [deliver]
  cases (runUnder schedule input environment).result <;> exact ⟨rfl, rfl⟩

inductive Call where
  | declarations (file : Schema.File)
  | generate (schedule : Nat → List GroupStep) (files : List Schema.File)

namespace Generator

def afterCall (generator : Generator) : Call → Generator
  | .declarations file => (generator.declarations file).2
  | .generate schedule files => (generator.generateUnder schedule files).2

def afterCalls (generator : Generator) (calls : List Call) : Generator :=
  calls.foldl afterCall generator

private theorem stateAfter_concat (state next : State) (events : List Event) :
    stateAfter state (events ++ [.entered next]) = next := by
  simp [stateAfter]

private theorem state_ofFiles {files : List Schema.File} {options : Options} {generator : Generator}
    (made : ofFiles files options = .ok generator) : generator.state = .buildingSymbolTable := by
  obtain ⟨workshop, built, rfl⟩ := Result.map_eq_ok.mp made
  obtain ⟨table, built, -⟩ := Workshop.result_ofFiles_eq_ok.mp built
  simp only [Workshop.ofFiles_built built]
  rfl

private theorem state_generateUnder (generator : Generator) (schedule : Nat → List GroupStep)
    (files : List Schema.File) :
    (generator.generateUnder schedule files).2.state =
      State.final (generator.generateUnder schedule files).1 := by
  simp only [generateUnder]
  cases worked : (generator.workshop.allOutputs schedule files).result with
  | error fault =>
    rw [Workshop.generate_broken worked]
    exact stateAfter_concat ..
  | ok outputs =>
    rw [Workshop.generate_complete worked, List.append_cons]
    exact stateAfter_concat ..

private theorem workshop_afterCalls (generator : Generator) (calls : List Call) :
    (generator.afterCalls calls).workshop = generator.workshop := by
  induction calls generalizing generator with
  | nil => rfl
  | cons call rest ih =>
    have kept : (generator.afterCall call).workshop = generator.workshop := by
      cases call <;> rfl
    exact (ih (generator.afterCall call)).trans kept

private theorem afterCalls_declarations (generator : Generator) (files : List Schema.File) :
    generator.afterCalls (files.map .declarations) = generator := by
  induction files with
  | nil => rfl
  | cons file rest ih => exact ih

end Generator

/-- A run without parallel work enters the states of its course and logs them by name, and its final
state, which tells how it ended, is the last thing logged. The state of a generator tells how the
latest work has ended, however much was asked of it before and whatever declarations were asked for
since. -/
theorem run_course :
    (∀ schedule input environment, Sequential input environment →
      let run := (deliver schedule input environment).run
      (∃ steps, RunCourse input environment (State.final run.result) steps ∧
        run.events.filterMap Event.step? = steps ∧
        (logged 1 run.events).filterMap Log.Entry.state? = steps.map Step.shown) ∧
      (logged 1 run.events).getLast? = some (Event.entered (State.final run.result)).entry ∧
      ∀ request, Request.ofBytes input = .ok request →
        ∃ encoded, EncodedRequest.read input = .ok encoded ∧
          request.toGenerate.map Schema.File.path = encoded.toGenerate) ∧
    ∀ files options generator, Generator.ofFiles files options = .ok generator →
      (∀ inspected : List Schema.File,
        (generator.afterCalls (inspected.map .declarations)).state = .buildingSymbolTable) ∧
      (∀ before schedule wanted (inspected : List Schema.File),
        ((generator.afterCalls before).generateUnder schedule wanted).1 =
          (generator.generateUnder schedule wanted).1 ∧
        (generator.afterCalls
            (before ++ .generate schedule wanted :: inspected.map .declarations)).state =
          State.final (generator.generateUnder schedule wanted).1) ∧
      ∀ calls file, ((generator.afterCalls calls).declarations file).2.state =
        (generator.afterCalls calls).state := by
  refine ⟨fun schedule input environment sequential => ?_, fun files options generator made => ?_⟩
  · obtain ⟨events, final⟩ := deliver_run schedule input environment
    obtain ⟨course, last⟩ := runUnder_course schedule sequential
    dsimp only
    rw [events, final]
    refine ⟨⟨_, course, rfl, filterMap_state?_logged _⟩, ?_, fun request read => ?_⟩
    · rw [logged_one, List.getLast?_map, last]
      rfl
    · obtain ⟨encoded, decoded⟩ := Request.exists_isIn_of_ofBytes read
      exact ⟨encoded, decoded.2, Request.paths_toGenerate decoded read⟩
  · refine ⟨fun inspected => ?_, fun before schedule wanted inspected => ?_, fun _ _ => rfl⟩
    · rw [generator.afterCalls_declarations]
      exact Generator.state_ofFiles made
    · have same : ((generator.afterCalls before).generateUnder schedule wanted).1 =
          (generator.generateUnder schedule wanted).1 := by
        simp only [Generator.generateUnder, generator.workshop_afterCalls before]
      refine ⟨same, ?_⟩
      rw [Generator.afterCalls, List.foldl_append, List.foldl_cons]
      change (Generator.afterCalls _ _).state = _
      rw [Generator.afterCalls_declarations, ← same]
      exact Generator.state_generateUnder ..

/-- A request for a file with a service and for one with a field whose type is declared nowhere. -/
def strayRequest : Text :=
  Wire.writeBytes 1 "a.proto" ++ Wire.writeBytes 1 "b.proto" ++
    Wire.writeBytes 15 (Wire.writeBytes 1 "a.proto" ++ Wire.writeBytes 6 (Wire.writeBytes 1 "S")) ++
    Wire.writeBytes 15 (Wire.writeBytes 1 "b.proto" ++ Wire.writeBytes 4 (Wire.writeBytes 1 "M" ++
      Wire.writeBytes 2 (Wire.writeBytes 1 "f" ++ Wire.writeNumber 5 11 ++
        Wire.writeBytes 6 ".Gone")))

/-- The run goes through all states of the first file and breaks off in the second; a generator that
has failed is done after work that succeeds. -/
theorem run_course_stray :
    (Sequential strayRequest (fun _ => none) ∧
      RunCourse strayRequest (fun _ => none) .failed [⟨none, .idle⟩, ⟨none, .parsingRequest⟩,
        ⟨none, .buildingSymbolTable⟩, ⟨some "a.proto", .formattingMessages⟩,
        ⟨some "a.proto", .renderingMessages⟩, ⟨some "a.proto", .formattingServices⟩,
        ⟨some "a.proto", .renderingServices⟩, ⟨some "b.proto", .formattingMessages⟩,
        ⟨none, .failed⟩]) ∧
    ∃ generator,
      Generator.ofFiles [Workshop.plainFile] {} = .ok generator ∧
      (generator.afterCalls [.generate inOrder [Workshop.strayFile],
        .generate inOrder [Workshop.plainFile], .declarations Workshop.strayFile]).state =
          .done := by
  have sequential : Sequential strayRequest fun _ => none :=
    sequential_of_parallel_eq (by decide +kernel)
  refine ⟨⟨sequential, ?_⟩, ?_⟩
  · obtain ⟨⟨steps, course, entered, -⟩, -⟩ := run_course.1 inOrder strayRequest _ sequential
    have failed : State.final (deliver inOrder strayRequest fun _ => none).run.result =
        .failed := by decide +kernel
    rw [failed, ← entered] at course
    convert course using 1
    decide +kernel
  · have plain : (Generator.ofFiles [Workshop.plainFile] {}).map
        (fun generator => State.final (generator.generateUnder inOrder [Workshop.plainFile]).1) =
          .ok .done := by decide +kernel
    obtain ⟨generator, made, succeeds⟩ := Result.map_eq_ok.mp plain
    have latest := ((run_course.2 _ _ generator made).2.1 [.generate inOrder [Workshop.strayFile]]
      inOrder [Workshop.plainFile] [Workshop.strayFile]).2
    exact ⟨generator, made, latest.trans succeeds⟩

end Generation

end ProtoTypings
