import ProtoTypings.Generation.Parallel
import ProtoTypings.Request

set_option autoImplicit false
set_option relaxedAutoImplicit false

/-!
Whole runs: from the bytes of a request to the response.
-/

namespace ProtoTypings.Generation

namespace Workshop

/-- The generated files of several schema files, made as the options want it: one file after the
other, or all at the same time under the schedule for so many tasks. -/
def allOutputs (workshop : Workshop) (schedule : Nat → List GroupStep)
    (files : List Schema.File) : Traced (List OutputFile) :=
  if workshop.options.parallel then workshop.outputsUnder (schedule files.length) files
  else workshop.outputs files

def generate (workshop : Workshop) (schedule : Nat → List GroupStep) (files : List Schema.File) :
    Traced Response := do
  let outputs ← Traced.onFailure (.entered .failed) (workshop.allOutputs schedule files)
  Traced.emit (.entered .assemblingResponse)
  Traced.emit (.entered .done)
  return Response.ofFiles outputs

end Workshop

/-- A generator that remembers the state it has entered last. -/
structure Generator where
  workshop : Workshop
  state : State := .buildingSymbolTable

namespace Generator

def stateAfter (state : State) (events : List Event) : State :=
  events.foldl (fun state event =>
    match event with
    | .entered next => next
    | _ => state) state

def ofFiles (files : List Schema.File) (options : Options) : Except Fault Generator :=
  let run := Workshop.ofFiles files options
  run.result.map fun workshop => { workshop, state := stateAfter .idle run.events }

def generateUnder (generator : Generator) (schedule : Nat → List GroupStep)
    (files : List Schema.File) : Except Fault Response × Generator :=
  let run := generator.workshop.generate schedule files
  (run.result, { generator with state := stateAfter generator.state run.events })

def generate (generator : Generator) (files : List Schema.File) :
    Except Fault Response × Generator :=
  generator.generateUnder inOrder files

/-- Everything declared for a schema file. This is no step of a run, so the state stays. -/
def declarations (generator : Generator) (file : Schema.File) :
    Except Fault Declaration.FileDeclarations × Generator :=
  (generator.workshop.declarations file, generator)

end Generator

def parse (input : Text) (environment : Environment) : Traced (Request × Options) :=
  Traced.onFailure (.entered .failed) do
    Traced.emit (.entered .idle)
    Traced.emit (.entered .parsingRequest)
    let request ← Traced.ofResult (Request.ofBytes input)
    let options ← Traced.ofResult (request.options environment)
    return (request, options)

/-- A run of the plugin under a schedule: from the bytes of a request to the response. -/
def runUnder (schedule : Nat → List GroupStep) (input : Text) (environment : Environment) :
    Traced Response := do
  let (request, options) ← parse input environment
  let workshop ← Workshop.ofFiles request.files options
  workshop.generate schedule request.toGenerate

/-- A run of the plugin in which tasks follow one another. -/
def run (input : Text) (environment : Environment) : Traced Response :=
  runUnder inOrder input environment

structure Delivery where
  /-- The bytes that reached the output. -/
  written : Text
  run : Traced Unit

/-- A run with an output that takes everything: the response is written if every step succeeds. -/
def deliver (schedule : Nat → List GroupStep) (input : Text) (environment : Environment) :
    Delivery :=
  let generated := runUnder schedule input environment
  match generated.result with
  | .ok response => ⟨response.write, ⟨generated.events, .ok ()⟩⟩
  | .error fault => ⟨[], ⟨generated.events, .error fault⟩⟩

structure Inspected where
  path : Text
  declarations : Declaration.FileDeclarations

def inspectFiles (workshop : Workshop) : List Schema.File → Except Fault (List Inspected)
  | [] => .ok []
  | file :: rest => do
    let declarations ← Fault.located (.file file.path) (workshop.declarations file)
    let more ← inspectFiles workshop rest
    return ⟨file.path, declarations⟩ :: more

/-- The declarations for a request, without laying them out. -/
def inspect (input : Text) (environment : Environment) : Traced (List Inspected) := do
  let request ← Traced.ofResult (Request.ofBytes input)
  let options ← Traced.ofResult (request.options environment)
  let workshop ← Workshop.ofFiles request.files options
  Traced.ofResult (inspectFiles workshop request.toGenerate)

end ProtoTypings.Generation
