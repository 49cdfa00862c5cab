import ProtoTypings.CommandLine.Arguments
import ProtoTypings.Data.Yaml
import ProtoTypings.Declaration.Data
import ProtoTypings.Generation.Run

set_option autoImplicit false
set_option relaxedAutoImplicit false

/-!
The program as a function from what it is given to what it does.
-/

namespace ProtoTypings.CommandLine

/-- What the program is given besides its arguments. -/
structure World where
  environment : Environment
  input : Text
  /-- The bytes of the file with a name, if there is one. -/
  openFile : Text → Option Text

inductive Output where
  | nothing
  | help (command : Command)
  | text (bytes : Text)
  | models (value : Data)

structure Outcome where
  status : Nat := 0
  /-- Whether a summary of the program's usage is printed for the user. -/
  usage : Bool := false
  /-- What is printed on standard error besides that. -/
  errors : Text := []
  output : Output := .nothing

def Outcome.ofFault (usage : Bool) (fault : Fault) : Outcome where
  status := 1
  usage
  errors := fault.diagnostic

/-- The outcome of a command whose run has been traced, at a verbosity. A failure that asks for help
is no failure. Usage is told if only the result cannot be printed. -/
def Outcome.ofTraced {α : Type} (command : Command) (verbosity : Int)
    (print : α → Except Fault Output) (run : Generation.Traced α) : Outcome :=
  let log := Log.writtenText verbosity (run.events.map (·.entry))
  match run.result with
  | .ok a =>
    match print a with
    | .ok output => { errors := log, output }
    | .error fault => { status := 1, usage := true, errors := log ++ fault.diagnostic }
  | .error fault =>
    if fault.asksForHelp then { errors := log, output := .help command }
    else { status := 1, errors := log ++ fault.diagnostic }

def runPlugin (schedule : Nat → List Generation.GroupStep) (world : World) : Outcome :=
  match world.environment.verbosity with
  | .error fault => .ofFault false fault
  | .ok verbosity =>
    let delivery := Generation.deliver schedule world.input world.environment
    .ofTraced .plugin verbosity (fun _ => .ok (.text delivery.written)) delivery.run

/-- The bytes of the request to inspect: those of a file, or those of standard input. -/
def requestBytes (world : World) : Option Text → Except Fault Text
  | none => .ok world.input
  | some file =>
    match world.openFile file with
    | some bytes => .ok bytes
    | none => .error (.within .requestFile (.noSuchFile file))

/-- The declarations that are inspected, as one value; null if there are none. -/
def inspectedData (inspected : List Generation.Inspected) : Data :=
  if inspected.isEmpty then .null
  else .list (inspected.map fun entry => entry.declarations.data entry.path)

def printInspected (inspected : List Generation.Inspected) : Except Fault Output :=
  match (inspectedData inspected).toYaml with
  | .ok value => .ok (.models value)
  | .error flaw => .error (.within .modelConversion (.unconvertible flaw))

def runInspect (world : World) (file : Option Text) : Outcome :=
  match world.environment.verbosity with
  | .error fault => .ofFault false fault
  | .ok verbosity =>
    match requestBytes world file with
    | .error fault => .ofFault true fault
    | .ok bytes =>
      .ofTraced .inspect verbosity printInspected (Generation.inspect bytes world.environment)

def versionLine : Text := Command.programName ++ " devel\n"

def Action.run (schedule : Nat → List Generation.GroupStep) (world : World) : Action → Outcome
  | .generate => runPlugin schedule world
  | .version => { output := .text versionLine }
  | .inspect file => runInspect world file
  | .help command => { output := .help command }

def executeUnder (schedule : Nat → List Generation.GroupStep) (world : World)
    (arguments : List Text) : Outcome :=
  match Action.ofArguments arguments with
  | .error fault => .ofFault true fault
  | .ok action => action.run schedule world

def execute (world : World) (arguments : List Text) : Outcome :=
  executeUnder Generation.inOrder world arguments

def Output.bytes : Output → Text
  | .nothing => []
  | .help command => command.description ++ [Text.newline]
  | .text bytes => bytes
  | .models value => value.json ++ [Text.newline]

end ProtoTypings.CommandLine
