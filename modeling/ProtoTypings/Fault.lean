import ProtoTypings.Data.Yaml
import ProtoTypings.Schema.Basic
import ProtoTypings.Setting
import ProtoTypings.Text.Quoted
import ProtoTypings.Wire.Record

set_option autoImplicit false
set_option relaxedAutoImplicit false

/-!
Everything that can go wrong, as data: the cause of a failure inside the places in which it was met.
The wording of all messages is in `Place.describe` and `Fault.message`.
-/

namespace ProtoTypings

inductive Place where
  | note (text : Text)
  | file (path : Text)
  | requestedFile (path : Text)
  | message (name : Text)
  | nestedMessage (name : Text)
  | field (name : Text)
  | extensionField (name : Text)
  | extension (name : Text)
  | method (service name : Text)
  | requestType
  | responseType
  | symbolTable
  | environment
  | verbosity
  | requestFile
  | modelConversion
  | responseWriting
  | responseReading
  deriving DecidableEq, Repr

def Place.describe : Place → Text
  | .note text => text
  | .file path => "file " ++ Quoted.text path
  | .requestedFile path => Quoted.text path
  | .message name => "message " ++ name
  | .nestedMessage name => "nested message " ++ name
  | .field name => "field " ++ Quoted.text name
  | .extensionField name => "extension " ++ Quoted.text name
  | .extension name => "extension " ++ name
  | .method service name => "service " ++ service ++ ", method " ++ name
  | .requestType => "request type"
  | .responseType => "response type"
  | .symbolTable => "unable to build symbol table"
  | .environment => "unable to read options from the environment"
  | .verbosity => "unable to read " ++ Setting.verbose.ownVariable
  | .requestFile => "unable to open request"
  | .modelConversion => "unable to convert models to YAML"
  | .responseWriting => "unable to write code generator response"
  | .responseReading => "unable to decode code generator response"

/-- Why a field has no type in the declarations. -/
inductive Unsupported where
  | kind
  | incompleteMap
  | mapKey
  | mapOfMaps
  | notEnum (name : Text)
  | notMessage (name : Text)
  | notCallable
  | stated (reason : Text)
  deriving DecidableEq, Repr

/-- The wording of a reason; a kind that is unsupported as such has none. -/
def Unsupported.message : Unsupported → Text
  | .kind => []
  | .incompleteMap => "map without key and value types"
  | .mapKey => "illegal map key kind"
  | .mapOfMaps => "map values may not be maps"
  | .notEnum name => name ++ " is not an enum"
  | .notMessage name => name ++ " is not a message"
  | .notCallable => "only messages can be used as rpc request or response types"
  | .stated reason => reason

/-- A failure: its cause, inside the places in which it was met. -/
inductive Fault where
  /-- A cause from outside, in its own words. -/
  | stated (text : Text)
  | within (place : Place) (inner : Fault)
  /-- A request that cannot be worked on. -/
  | malformed (reason : Text)
  | malformedBy (reason : Text) (inner : Fault)
  | undecodable (flaw : Wire.Flaw)
  | unnamedFile
  | oneofIndex (index : Int) (declared : Nat)
  | incompleteMapEntry (name : Text)
  | notInRequest
  /-- A reference to a declaration that is nowhere. -/
  | unresolved (name source : Text)
  /-- Two declarations with one name. -/
  | duplicate (name first second : Text)
  | unsupported (field : Text) (kind : Schema.FieldKind) (reason : Unsupported)
  | unrenderable (layout file : Text) (inner : Fault)
  /-- A setting of the environment with a value of another type. -/
  | badSetting (setting : Setting) (value : Text) (flaw : Numeral.Flaw)
  | unknownMode (value : Text)
  | unknownImportStyle (value : Text)
  | unknownReservedPolicy (value : Text)
  | helpRequested
  | badFlag (argument : Text)
  | unknownFlag (name : Text)
  | unknownShorthand (letter : UInt8) (group : Text)
  | flagWithoutValue (argument : Text)
  | badFlagValue (flag value : Text)
  | unknownCommand (argument command : Text)
  | tooManyArguments (most given : Nat)
  | noSuchFile (path : Text)
  /-- A value that cannot be handed on in YAML. -/
  | unconvertible (flaw : Yaml.Flaw)
  deriving DecidableEq, Repr, Inhabited

inductive FaultKind where
  | malformedRequest
  | unresolvedReference
  | unsupportedFieldKind
  | renderError
  | other
  deriving DecidableEq, Repr

def FaultKind.name : FaultKind → Text
  | .malformedRequest => "malformed request"
  | .unresolvedReference => "unresolved reference"
  | .unsupportedFieldKind => "unsupported field kind"
  | .renderError => "render error"
  | .other => "error"

def Wire.Flaw.message : Wire.Flaw → Text
  | .malformed => "proto: cannot parse invalid wire-format data"
  | .tooDeep => "proto: exceeded maximum recursion depth"
  | .notSet name => "proto: required field " ++ name ++ " not set"

/-- The wording of a flaw of a document. The first line is not named. -/
def Yaml.Flaw.message : Yaml.Flaw → Text
  | .controlCharacter => "yaml: control characters are not allowed"
  | .documentMark linesBefore =>
    "yaml: " ++ line linesBefore ++ "found unexpected document indicator"
  | .tooDeep linesBefore =>
    "yaml: " ++ line linesBefore ++ "exceeded max depth of " ++ Text.ofNat Yaml.maxDepth
where
  line (linesBefore : Nat) : Text :=
    if linesBefore = 0 then [] else "line " ++ Text.ofNat (linesBefore + 1) ++ ": "

/-- The wording of a value that could not be read by the named reader. -/
def Numeral.Flaw.message (flaw : Numeral.Flaw) (reader value : Text) : Text :=
  let reason : Text := match flaw with
    | .invalidSyntax => "invalid syntax"
    | .outOfRange => "value out of range"
  "strconv." ++ reader ++ ": parsing " ++ Quoted.text value ++ ": " ++ reason

namespace Fault

def message : Fault → Text
  | .stated text => text
  | .within place inner => place.describe ++ ": " ++ inner.message
  | .malformed reason => reason
  | .malformedBy reason inner => reason ++ ": " ++ inner.message
  | .undecodable flaw => flaw.message
  | .unnamedFile => "file descriptor has no name"
  | .oneofIndex index declared =>
    "oneof index " ++ Text.ofInt index ++ " out of range (" ++ Text.ofNat declared ++
      " oneofs declared)"
  | .incompleteMapEntry name => "map entry " ++ Quoted.text name ++ " is missing its key or value"
  | .notInRequest => "file not in request"
  | .unresolved name source =>
    "type " ++ Quoted.text name ++ " referenced from " ++ Quoted.text source ++
      " is not declared in any file of the request"
  | .duplicate name first second =>
    "type " ++ Quoted.text name ++ " is declared in both " ++ Quoted.text first ++ " and " ++
      Quoted.text second
  | .unsupported field kind reason =>
    if reason.message = [] then
      "field " ++ Quoted.text field ++ " has unsupported kind " ++ kind.name
    else "field " ++ Quoted.text field ++ ": " ++ reason.message ++ " (" ++ kind.name ++ ")"
  | .unrenderable layout file inner =>
    if file = [] then "template " ++ layout ++ ": " ++ inner.message
    else "template " ++ layout ++ " for " ++ Quoted.text file ++ ": " ++ inner.message
  | .badSetting setting value flaw =>
    let reader : Text := if setting = .verbose then "ParseInt" else "ParseBool"
    "envconfig.Process: assigning " ++ setting.ownVariable ++ " to " ++ setting.label ++
      ": converting '" ++ value ++ "' to type " ++ setting.typeName ++ ". details: " ++
      flaw.message reader value
  | .unknownMode value =>
    "unknown mode " ++ Quoted.text value ++ " (expected grpc-node or grpc-js)"
  | .unknownImportStyle value =>
    "unknown import style " ++ Quoted.text value ++ " (expected root or relative)"
  | .unknownReservedPolicy value =>
    "unknown reserved word policy " ++ Quoted.text value ++ " (expected prefix or suffix)"
  | .helpRequested => "pflag: help requested"
  | .badFlag argument => "bad flag syntax: " ++ argument
  | .unknownFlag name => "unknown flag: --" ++ name
  | .unknownShorthand letter group =>
    "unknown shorthand flag: " ++ Quoted.byte letter ++ " in -" ++ group
  | .flagWithoutValue argument => "flag needs an argument: " ++ argument
  | .badFlagValue flag value =>
    "invalid argument " ++ Quoted.text value ++ " for " ++ Quoted.text flag ++ " flag: " ++
      Numeral.Flaw.invalidSyntax.message "ParseBool" value
  | .unknownCommand argument command =>
    "unknown command " ++ Quoted.text argument ++ " for " ++ Quoted.text command
  | .tooManyArguments most given =>
    "accepts at most " ++ Text.ofNat most ++ " arg(s), received " ++ Text.ofNat given
  | .noSuchFile path => "open " ++ path ++ ": file does not exist"
  | .unconvertible flaw => flaw.message

/-- The kind of the outermost part of a failure that has one. -/
def kind : Fault → FaultKind
  | .malformed _ | .malformedBy _ _ | .duplicate _ _ _ => .malformedRequest
  | .unresolved _ _ => .unresolvedReference
  | .unsupported _ _ _ => .unsupportedFieldKind
  | .unrenderable _ _ _ => .renderError
  | .within _ inner => inner.kind
  | _ => .other

/-- The failure and everything inside it, outermost first. -/
def chain : Fault → List Fault
  | .within place inner => .within place inner :: inner.chain
  | .malformedBy reason inner => .malformedBy reason inner :: inner.chain
  | .unrenderable layout file inner => .unrenderable layout file inner :: inner.chain
  | cause => [cause]

def cause : Fault → Fault
  | .within _ inner | .malformedBy _ inner | .unrenderable _ _ inner => inner.cause
  | fault => fault

def asksForHelp (fault : Fault) : Bool := fault.cause = .helpRequested

/-- A result whose failure, if it is one, was met in a place. -/
def located {α : Type} (place : Place) : Except Fault α → Except Fault α
  | .ok a => .ok a
  | .error fault => .error (.within place fault)

/-- The line that tells a user about a failure. -/
def diagnostic (fault : Fault) : Text :=
  "protoc-gen-tsd: " ++ fault.kind.name ++ ": " ++ fault.message ++ [Text.newline]

end Fault

end ProtoTypings
