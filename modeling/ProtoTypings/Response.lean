import ProtoTypings.Fault

set_option autoImplicit false
set_option relaxedAutoImplicit false

/-!
Code generator responses: how they are written and read.
-/

namespace ProtoTypings

structure OutputFile where
  name : Text
  content : Text
  deriving DecidableEq, Repr

namespace Response

/-- A file of a response, either part of which may be missing. -/
structure File where
  name : Option Text := none
  content : Option Text := none
  deriving DecidableEq, Repr

end Response

structure Response where
  error : Option Text := none
  /-- The features that the generator supports, a bit for each. -/
  features : Option Nat := none
  files : List Response.File := []
  deriving DecidableEq, Repr

namespace Response

/-- Support for optional fields in proto3. -/
def proto3Optional : Nat := 1

def ofFiles (files : List OutputFile) : Response where
  features := some proto3Optional
  files := files.map fun file => ⟨some file.name, some file.content⟩

def writeText? (number : Nat) : Option Text → Text
  | some content => Wire.writeBytes number content
  | none => []

def File.write (file : File) : Text := writeText? 1 file.name ++ writeText? 15 file.content

def write (response : Response) : Text :=
  writeText? 1 response.error ++
    (match response.features with
    | some features => Wire.writeNumber 2 features
    | none => []) ++
    response.files.flatMap fun file => Wire.writeBytes 15 file.write

def File.ofRecord (record : List Wire.Field) : File where
  name := Wire.text? 1 record
  content := Wire.text? 15 record

def ofRecord (record : List Wire.Field) : Response where
  error := Wire.text? 1 record
  features := Wire.number? 2 record
  files := (Wire.recordsOf 15 record).map File.ofRecord

def read (s : Text) : Except Fault Response :=
  match Wire.readRecord .response s with
  | .error flaw => .error (.within .responseReading (.undecodable flaw))
  | .ok record => .ok (ofRecord record)

/-- What reaches an output that takes everything, or fails in the words of `failure`. -/
def send (response : Response) (failure : Option Text) : Except Fault Text :=
  match failure with
  | some reason => .error (.within .responseWriting (.stated reason))
  | none => .ok response.write

end Response

end ProtoTypings
