import ProtoTypings.CommandLine.Program

set_option autoImplicit false
set_option relaxedAutoImplicit false

/-!
The program: it reads what it is given, and prints and exits as told.
-/

namespace ProtoTypings.Program

open CommandLine (Action)

def toBytes (s : Text) : ByteArray := ⟨s.toArray⟩

def toString? (s : Text) : Option String := String.fromUTF8? (toBytes s)

def readEnvironment : IO Environment := do
  let names := Setting.all.flatMap fun setting => [setting.ownVariable, setting.bareVariable]
  let values ← names.filterMapM fun name => do
    let value ← IO.getEnv ((toString? name).getD "")
    return value.map fun value => (name, Text.ofString value)
  return fun name => values.lookup name

/-- The bytes of standard input, if the program is asked for something that needs them. -/
def readInput : Except Fault Action → IO Text
  | .ok .generate | .ok (.inspect none) => do
    let bytes ← (← IO.getStdin).readBinToEnd
    return bytes.toList
  | _ => return []

def readFile : Except Fault Action → IO (Option Text)
  | .ok (.inspect (some file)) => do
    match toString? file with
    | none => return none
    | some path =>
      try
        let bytes ← IO.FS.readBinFile path
        return some bytes.toList
      catch _ => return none
  | _ => return none

def usage : Text := Text.join [Text.newline] [
  "Usage:",
  "  protoc-gen-tsd",
  "  protoc-gen-tsd inspect [request-file]",
  "  protoc-gen-tsd version",
  "  protoc-gen-tsd help [command]",
  []]

end ProtoTypings.Program

open ProtoTypings ProtoTypings.Program in
def main (arguments : List String) : IO UInt32 := do
  let arguments := arguments.map Text.ofString
  let action := CommandLine.Action.ofArguments arguments
  let environment ← readEnvironment
  let input ← readInput action
  let content ← readFile action
  let outcome := CommandLine.execute ⟨environment, input, fun _ => content⟩ arguments
  if outcome.usage then (← IO.getStderr).write (toBytes usage)
  (← IO.getStderr).write (toBytes outcome.errors)
  (← IO.getStdout).write (toBytes outcome.output.bytes)
  (← IO.getStdout).flush
  return outcome.status.toUInt32
