import ProtoTypings.Fault
import ProtoTypings.Log
import ProtoTypings.Text.Basic

set_option autoImplicit false
set_option relaxedAutoImplicit false

/-!
The states of a run, and computations that tell what they do: each has a list of events and a
result, and a failure ends it.
-/

namespace ProtoTypings.Generation

inductive State where
  | idle
  | parsingRequest
  | buildingSymbolTable
  | formattingMessages
  | renderingMessages
  | formattingServices
  | renderingServices
  | assemblingResponse
  | done
  | failed
  deriving DecidableEq, Repr, Inhabited

namespace State

def enumeration : Enumeration :=
  ⟨"State",
    ["Idle", "ParsingRequest", "BuildingSymbolTable", "FormattingMessages", "RenderingMessages",
      "FormattingServices", "RenderingServices", "AssemblingResponse", "Done", "Failed"]⟩

def code : State → Int
  | .idle => 0
  | .parsingRequest => 1
  | .buildingSymbolTable => 2
  | .formattingMessages => 3
  | .renderingMessages => 4
  | .formattingServices => 5
  | .renderingServices => 6
  | .assemblingResponse => 7
  | .done => 8
  | .failed => 9

def name (state : State) : Text := enumeration.nameOf state.code

end State

/-- Something that happens in a run; work on a schema file names its path. -/
inductive Event where
  | entered (state : State)
  | builtTable (files symbols : Nat)
  | enteredFor (file : Text) (state : State)
  | skippedServices (file : Text)
  deriving DecidableEq, Repr

def Event.entry : Event → Log.Entry
  | .entered state => ⟨.info 1, "entering state", [("state", .text state.name)]⟩
  | .builtTable files symbols =>
    ⟨.info 1, "built symbol table", [("files", .integer files), ("symbols", .integer symbols)]⟩
  | .enteredFor file state =>
    ⟨.info 1, "entering state", [("file", .text file), ("state", .text state.name)]⟩
  | .skippedServices file =>
    ⟨.info 1, "no services, skipping service declarations", [("file", .text file)]⟩

structure Traced (α : Type) where
  events : List Event
  result : Except Fault α

namespace Traced

def ofResult {α : Type} (result : Except Fault α) : Traced α := ⟨[], result⟩

def emit (event : Event) : Traced Unit := ⟨[event], .ok ()⟩

/-- Goes on with the result of a computation, unless it failed. -/
def bind {α β : Type} (first : Traced α) (next : α → Traced β) : Traced β :=
  match first.result with
  | .error fault => ⟨first.events, .error fault⟩
  | .ok a =>
    let second := next a
    ⟨first.events ++ second.events, second.result⟩

instance : Monad Traced where
  pure a := ⟨[], .ok a⟩
  bind := bind

/-- Lets an event happen after a failure. -/
def onFailure {α : Type} (event : Event) (computation : Traced α) : Traced α :=
  match computation.result with
  | .error _ => ⟨computation.events ++ [event], computation.result⟩
  | .ok _ => computation

end Traced

end ProtoTypings.Generation
