import ProtoTypings.Declaration.Message
import ProtoTypings.Declaration.Service
import ProtoTypings.Generation.State
import ProtoTypings.Layout.Service
import ProtoTypings.Response

set_option autoImplicit false
set_option relaxedAutoImplicit false

/-!
A generator holds the symbols of all schema files and makes declarations for any of them.
-/

namespace ProtoTypings.Generation

open Declaration (FileDeclarations MessageFile ServiceFile)

structure Workshop where
  table : SymbolTable
  options : Options

namespace Workshop

def ofFiles (files : List Schema.File) (options : Options) : Traced Workshop :=
  Traced.onFailure (.entered .failed) do
    Traced.emit (.entered .buildingSymbolTable)
    let table ← Traced.ofResult <|
      Fault.located .symbolTable (SymbolTable.ofFiles options.importStyle files)
    Traced.emit (.builtTable files.length table.size)
    return { table, options }

def declarations (workshop : Workshop) (file : Schema.File) : Except Fault FileDeclarations := do
  let messages ← MessageFile.ofSchema file workshop.table workshop.options
  let services ← ServiceFile.ofSchema file workshop.table workshop.options
  return { messages, services }

def serviceOutput (file : Schema.File) : Option ServiceFile → Traced (List OutputFile)
  | none => do
    Traced.emit (.skippedServices file.path)
    return []
  | some services => do
    Traced.emit (.enteredFor file.path .renderingServices)
    let content ← Traced.ofResult (Layout.renderServices services)
    return [⟨Path.serviceFile file.path, content⟩]

/-- The generated files of a schema file: its messages first, then its services. -/
def output (workshop : Workshop) (file : Schema.File) : Traced (List OutputFile) := do
  Traced.emit (.enteredFor file.path .formattingMessages)
  let messages ← Traced.ofResult <| Fault.located (.file file.path)
    (MessageFile.ofSchema file workshop.table workshop.options)
  Traced.emit (.enteredFor file.path .renderingMessages)
  let content ← Traced.ofResult (Layout.renderMessages messages)
  Traced.emit (.enteredFor file.path .formattingServices)
  let services ← Traced.ofResult <| Fault.located (.file file.path)
    (ServiceFile.ofSchema file workshop.table workshop.options)
  let rest ← serviceOutput file services
  return ⟨Path.messageFile file.path, content⟩ :: rest

def outputs (workshop : Workshop) : List Schema.File → Traced (List OutputFile)
  | [] => return []
  | file :: rest => do
    let first ← workshop.output file
    let more ← workshop.outputs rest
    return first ++ more

end Workshop

end ProtoTypings.Generation
