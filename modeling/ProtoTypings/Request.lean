import ProtoTypings.Descriptor
import ProtoTypings.Options
import ProtoTypings.Schema.OfDescriptor

set_option autoImplicit false
set_option relaxedAutoImplicit false

/-!
Code generator requests: the schema files, which of them declarations are wanted for, and the plugin
parameter.
-/

namespace ProtoTypings

structure EncodedRequest where
  toGenerate : List Text := []
  parameter : Text := []
  files : List Descriptor.File := []

namespace EncodedRequest

def ofRecord (record : List Wire.Field) : EncodedRequest where
  toGenerate := Wire.bytesOf 1 record
  parameter := Wire.text 2 record
  files := (Wire.recordsOf 15 record).map Descriptor.File.ofRecord

def read (s : Text) : Except Fault EncodedRequest :=
  match Wire.readRecord .request s with
  | .error flaw => .error (.undecodable flaw)
  | .ok record => .ok (ofRecord record)

end EncodedRequest

structure Request where
  /-- All schema files, in the order of the request; their paths differ. -/
  files : List Schema.File := []
  /-- The schema files that declarations are wanted for. -/
  toGenerate : List Schema.File := []
  parameter : Text := []

namespace Request

def findFile (files : List Schema.File) (path : Text) : Except Fault Schema.File :=
  match files.find? fun file => decide (file.path = path) with
  | some file => .ok file
  | none => .error (.within (.requestedFile path) .notInRequest)

def load (request : Request) (path : Text) : Except Fault Schema.File :=
  findFile request.files path

/-- The schema files of some descriptors, after the ones that have been read before. -/
def convertFiles (earlier : List Schema.File) :
    List Descriptor.File → Except Fault (List Schema.File)
  | [] => .ok earlier
  | raw :: rest =>
    match Schema.File.ofDescriptor raw with
    | .error fault => .error (.malformedBy "invalid file descriptor" fault)
    | .ok file =>
      if earlier.any fun other => decide (other.path = file.path) then
        .error (.malformed ("file " ++ Quoted.text file.path ++ " appears more than once"))
      else convertFiles (earlier ++ [file]) rest

def wanted (files : List Schema.File) : List Text → Except Fault (List Schema.File)
  | [] => .ok []
  | path :: rest =>
    match findFile files path with
    | .error fault => .error (.malformedBy "unknown file to generate" fault)
    | .ok file => (wanted files rest).map (file :: ·)

def ofEncoded (encoded : EncodedRequest) : Except Fault Request := do
  let files ← convertFiles [] encoded.files
  let toGenerate ← wanted files encoded.toGenerate
  return { files, toGenerate, parameter := encoded.parameter }

def ofBytes (input : Text) : Except Fault Request :=
  if input = [] then .error (.malformed "empty code generator request")
  else match EncodedRequest.read input with
    | .error fault => .error (.malformedBy "unable to decode code generator request" fault)
    | .ok encoded => ofEncoded encoded

def options (request : Request) (environment : Environment) : Except Fault Options :=
  match Options.ofParameter environment request.parameter with
  | .error fault => .error (.malformedBy "invalid plugin parameter" fault)
  | .ok options => .ok options

end Request

end ProtoTypings
