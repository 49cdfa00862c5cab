import ProtoTypings.Fault
import ProtoTypings.Identifier
import ProtoTypings.Path
import ProtoTypings.Text.Basic

set_option autoImplicit false
set_option relaxedAutoImplicit false

/-!
The options of a run. They come from the environment and from the plugin parameter, which wins over
it and is a list of flags with commas between them.
-/

namespace ProtoTypings

/-- The values of the variables that are set. -/
abbrev Environment := Text → Option Text

namespace Environment

/-- The value of a setting: that of the program's own variable, else that of the bare one. -/
def setting? (environment : Environment) (setting : Setting) : Option Text :=
  (environment setting.ownVariable).or (environment setting.bareVariable)

def text (environment : Environment) (setting : Setting) (otherwise : Text) : Text :=
  (environment.setting? setting).getD otherwise

/-- The value of a boolean setting, false if it is not set. -/
def boolean (environment : Environment) (setting : Setting) : Except Fault Bool :=
  match environment.setting? setting with
  | none => .ok false
  | some value =>
    match Numeral.boolean? value with
    | some b => .ok b
    | none => .error (.badSetting setting value .invalidSyntax)

/-- The value of a numeric setting, zero if it is not set. -/
def integer (environment : Environment) (setting : Setting) : Except Fault Int :=
  match environment.setting? setting with
  | none => .ok 0
  | some value =>
    match Numeral.signed value with
    | .ok n => .ok n
    | .error flaw => .error (.badSetting setting value flaw)

def verbosity (environment : Environment) : Except Fault Int :=
  Fault.located .verbosity (environment.integer .verbose)

end Environment

namespace Flag

/-- Name and value of an argument that starts with two hyphens and has more after them. -/
def parts (argument : Text) : Except Fault (Text × Option Text) :=
  let body := argument.drop 2
  if body.head? = some Text.hyphen || body.head? = some Text.equals then .error (.badFlag argument)
  else .ok (Text.cutAt Text.equals body)

/-- The value of a boolean flag; `shown` is what the flag is called in a message. -/
def boolean (shown value : Text) : Except Fault Bool :=
  match Numeral.boolean? value with
  | some b => .ok b
  | none => .error (.badFlagValue shown value)

end Flag

structure Options where
  /-- Services use the runtime module written in JavaScript. -/
  grpcJs : Bool := false
  importStyle : ImportStyle := .fromRoot
  reserved : ReservedPolicy := .leading
  /-- Comments of the schema are copied into the declarations. -/
  comments : Bool := false
  /-- Files are worked on at the same time. -/
  parallel : Bool := false
  deriving DecidableEq, Repr

inductive ParameterFlag where
  | mode
  | grpcJs
  | importStyle
  | reserved
  | comments
  | parallel
  deriving DecidableEq, Repr

namespace ParameterFlag

def name : ParameterFlag → Text
  | .mode => "mode"
  | .grpcJs => "grpc-js"
  | .importStyle => "import-style"
  | .reserved => "reserved"
  | .comments => "comments"
  | .parallel => "parallel"

def all : List ParameterFlag := [.mode, .grpcJs, .importStyle, .reserved, .comments, .parallel]

/-- The flag with a name, in which underscores count as hyphens. -/
def ofName? (written : Text) : Option ParameterFlag :=
  all.find? fun flag => decide (flag.name = Text.replace Text.underscore Text.hyphen written)

/-- Whether a flag may stand without a value, meaning true. -/
def isBoolean : ParameterFlag → Bool
  | .grpcJs | .comments | .parallel => true
  | .mode | .importStyle | .reserved => false

end ParameterFlag

/-- Options as they are written, before their values are checked. -/
structure WrittenOptions where
  mode : Text := []
  grpcJs : Bool := false
  importStyle : Text := []
  reserved : Text := []
  comments : Bool := false
  parallel : Bool := false
  deriving DecidableEq, Repr

namespace WrittenOptions

def ofEnvironment (environment : Environment) : Except Fault WrittenOptions :=
  Fault.located .environment do
    let comments ← environment.boolean .comments
    let parallel ← environment.boolean .parallel
    return {
      mode := environment.text .mode "grpc-node"
      importStyle := environment.text .importStyle "root"
      reserved := environment.text .reserved "prefix"
      comments
      parallel }

def set (written : WrittenOptions) (flag : ParameterFlag) (value : Text) :
    Except Fault WrittenOptions :=
  let boolean := Flag.boolean ("--" ++ flag.name) value
  match flag with
  | .mode => .ok { written with mode := value }
  | .importStyle => .ok { written with importStyle := value }
  | .reserved => .ok { written with reserved := value }
  | .grpcJs => boolean.map fun b => { written with grpcJs := b }
  | .comments => boolean.map fun b => { written with comments := b }
  | .parallel => boolean.map fun b => { written with parallel := b }

/-- The options after the flags of an argument list. A text flag without a value takes the next
argument as it is; `--` alone ends the list. -/
def setAll (written : WrittenOptions) : List Text → Except Fault WrittenOptions
  | [] => .ok written
  | argument :: rest => do
    if argument.length ≤ 2 then return written
    let (name, value?) ← Flag.parts argument
    match ParameterFlag.ofName? name with
    | none => throw (if name = Text.ofString "help" then .helpRequested else .unknownFlag name)
    | some flag =>
      match value? with
      | some value => setAll (← written.set flag value) rest
      | none =>
        if flag.isBoolean then setAll (← written.set flag "true") rest
        else match rest with
          | [] => throw (.flagWithoutValue argument)
          | next :: rest => setAll (← written.set flag next) rest

def jsMode : Text := "grpc-js"

/-- The modes in which services use the native runtime module; the empty text is the default. -/
def nativeModes : List Text := ["grpc-node", "grpc", []]

def usesJs (written : WrittenOptions) : Except Fault Bool :=
  let mode := if written.grpcJs then jsMode else written.mode
  if mode = jsMode then .ok true
  else if nativeModes.contains mode then .ok false
  else .error (.unknownMode mode)

def checked (written : WrittenOptions) : Except Fault Options := do
  let grpcJs ← written.usesJs
  let importStyle ← match ImportStyle.ofText? written.importStyle with
    | some style => pure style
    | none => throw (.unknownImportStyle written.importStyle)
  let reserved ← match ReservedPolicy.ofText? written.reserved with
    | some policy => pure policy
    | none => throw (.unknownReservedPolicy written.reserved)
  return {
    grpcJs
    importStyle
    reserved
    comments := written.comments
    parallel := written.parallel }

end WrittenOptions

namespace Options

/-- The arguments that a parameter stands for: its parts without blanks around them and with exactly
two hyphens in front. -/
def arguments (parameter : Text) : List Text :=
  ((Text.split 44 parameter).map Blank.trim).filterMap fun part =>
    if part = [] then none else some ("--" ++ part.dropWhile (· = Text.hyphen))

def ofParameter (environment : Environment) (parameter : Text) : Except Fault Options := do
  let written ← WrittenOptions.ofEnvironment environment
  (← written.setAll (arguments parameter)).checked

end Options

end ProtoTypings
