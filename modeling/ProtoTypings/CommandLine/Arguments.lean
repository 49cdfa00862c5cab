import ProtoTypings.Options
import ProtoTypings.Path
import ProtoTypings.Text.Basic

set_option autoImplicit false
set_option relaxedAutoImplicit false

/-!
The commands of the program and the reading of its arguments: which command they name, whether they
ask for help, and what is left for the command.
-/

namespace ProtoTypings.CommandLine

/-- The commands; `plugin` is what runs without a command's name. -/
inductive Command where
  | plugin
  | version
  | inspect
  | help
  deriving DecidableEq, Repr

namespace Command

def programName : Text := "protoc-gen-tsd"

def ofName? (name : Text) : Option Command :=
  if name = Text.ofString "version" then some .version
  else if name = Text.ofString "inspect" then some .inspect
  else if name = Text.ofString "help" then some .help
  else none

def path : Command → Text
  | .plugin => programName
  | .version => programName ++ " version"
  | .inspect => programName ++ " inspect"
  | .help => programName ++ " help"

def description : Command → Text
  | .plugin => Text.join [Text.newline] [
      "Generate TypeScript declarations (*_pb.d.ts and *_grpc_pb.d.ts) from a",
      "protoc code generator request read on stdin.  Normally run by protoc:",
      [],
      "  protoc --plugin=protoc-gen-tsd --tsd_out=mode=grpc-js:out foo.proto",
      [],
      "Options come from the plugin parameter, or from PROTOC_GEN_TSD_* environment",
      "variables.  PROTOC_GEN_TSD_VERBOSE sets the log verbosity on stderr."]
  | .version => "Print the plugin version"
  | .inspect => Text.join [Text.newline] [
      "Print the declaration models for a code generator request as YAML, without",
      "rendering them.  The request is read from the given file, or from stdin."]
  | .help => Text.join [Text.newline] [
      "Help provides help for any command in the application.",
      "Simply type protoc-gen-tsd help [path to command] for full details."]

end Command

/-- Two hyphens, after which nothing is a flag. -/
def terminator : Text := [Text.hyphen, Text.hyphen]

/-- Whether an argument looks like a flag whose value is the next argument: a long flag or a single
letter, without an equals sign. -/
def mayTakeNext (argument : Text) : Bool :=
  !argument.contains Text.equals &&
    (Text.startsWith terminator argument ||
      (Text.startsWith [Text.hyphen] argument && argument.length = 2))

/-- Looks for the command among the arguments: it is the first one that is neither empty, nor a
flag, nor what may be the value of a flag. The search stops at two hyphens, and at a flag after
which there is at most one argument. `before` holds the arguments passed by, last first. -/
def findCommand (before : List Text) : List Text → Option (Command × List Text)
  | [] => none
  | argument :: rest =>
    if argument = terminator then none
    else if mayTakeNext argument then
      match rest with
      | value :: next :: rest => findCommand (value :: argument :: before) (next :: rest)
      | _ => none
    else if argument = [] || Text.startsWith [Text.hyphen] argument then
      findCommand (argument :: before) rest
    else (Command.ofName? argument).map fun command => (command, before.reverse ++ rest)

def command (arguments : List Text) : Command × List Text :=
  (findCommand [] arguments).getD (.plugin, arguments)

structure Parsed where
  help : Bool := false
  positional : List Text := []
  deriving DecidableEq, Repr

/-- What the help flag is called in messages. -/
def helpFlag : Text := "-h, --help"

/-- A group of letters after a single hyphen. Each is a flag; an equals sign and more after the
letter give its value. A group that starts with `test.` is passed over. -/
def readLetters (help : Bool) : Text → Except Fault Bool
  | [] => .ok help
  | letter :: rest =>
    if Text.startsWith "test." (letter :: rest) then .ok help
    else if letter ≠ 104 then .error (.unknownShorthand letter (letter :: rest))
    else match rest with
      | 61 :: c :: value => Flag.boolean helpFlag (c :: value)
      | _ => readLetters true rest

def readNamed (argument : Text) : Except Fault Bool := do
  let (name, value?) ← Flag.parts argument
  if name ≠ Text.ofString "help" then throw (.unknownFlag name)
  Flag.boolean helpFlag (value?.getD "true")

def parseFrom (parsed : Parsed) : List Text → Except Fault Parsed
  | [] => .ok { parsed with positional := parsed.positional.reverse }
  | argument :: rest =>
    if argument = terminator then
      .ok { parsed with positional := parsed.positional.reverse ++ rest }
    else if Text.startsWith terminator argument then do
      let help ← readNamed argument
      parseFrom { parsed with help } rest
    else if Text.startsWith [Text.hyphen] argument && argument.length ≠ 1 then do
      let help ← readLetters parsed.help argument.tail
      parseFrom { parsed with help } rest
    else parseFrom { parsed with positional := argument :: parsed.positional } rest

/-- Reads the arguments of a command: flags may stand anywhere before two hyphens. -/
def parse (arguments : List Text) : Except Fault Parsed := parseFrom {} arguments

def checkPositional (command : Command) (positional : List Text) : Except Fault Unit :=
  match command with
  | .plugin | .version =>
    match positional with
    | [] => .ok ()
    | first :: _ => .error (.unknownCommand first command.path)
  | .inspect =>
    if 1 < positional.length then .error (.tooManyArguments 1 positional.length) else .ok ()
  | .help => .ok ()

inductive Action where
  | generate
  | version
  /-- Show the declarations for the request in a file, or on standard input. -/
  | inspect (file : Option Text)
  | help (command : Command)
  deriving DecidableEq, Repr

def Action.ofCommand (command : Command) (positional : List Text) : Action :=
  match command with
  | .plugin => .generate
  | .version => .version
  | .inspect => .inspect (positional.head?.map Path.fileName)
  | .help => .help (CommandLine.command positional).1

/-- What the arguments ask for. A bad flag is reported before anything else, and help is given
before positional arguments are looked at. -/
def Action.ofArguments (arguments : List Text) : Except Fault Action := do
  let (command, rest) := CommandLine.command arguments
  let parsed ← parse rest
  if parsed.help then return .help command
  checkPositional command parsed.positional
  return .ofCommand command parsed.positional

end ProtoTypings.CommandLine
