import ProtoTypings.Text.Basic
import ProtoTypings.Wire.Record

set_option autoImplicit false
set_option relaxedAutoImplicit false

/-!
Descriptors: schema files as a code generator request describes them. Texts that are not set are
empty, and numbers keep the meaning of the request. They are read from the fields of records that
have been checked before, so nothing can fail here.
-/

namespace ProtoTypings.Descriptor

structure Field where
  name : Text := []
  extendee : Text := []
  number : Int := 0
  label : Int := 1
  type : Option Int := none
  typeName : Text := []
  oneofIndex : Option Int := none
  proto3Optional : Bool := false
  jsType : Int := 0

structure EnumValue where
  name : Text := []
  number : Int := 0

structure Enum where
  name : Text := []
  values : List EnumValue := []

structure Message where
  name : Text := []
  fields : List Field := []
  nested : List Message := []
  enums : List Enum := []
  extensions : List Field := []
  oneofs : List Text := []
  mapEntry : Bool := false

structure Method where
  name : Text := []
  inputType : Text := []
  outputType : Text := []
  clientStreaming : Bool := false
  serverStreaming : Bool := false

structure Service where
  name : Text := []
  methods : List Method := []

/-- A place in the source of a schema file: the path of the element that stands there, and the
comment before it. -/
structure Location where
  path : List Int := []
  leadingComments : Text := []

structure File where
  name : Text := []
  package : Text := []
  syntaxName : Text := []
  dependencies : List Text := []
  messages : List Message := []
  enums : List Enum := []
  services : List Service := []
  extensions : List Field := []
  locations : List Location := []

open Wire (recordsOf)

def Field.ofRecord (record : List Wire.Field) : Field where
  name := Wire.text 1 record
  extendee := Wire.text 2 record
  number := (Wire.int32? 3 record).getD 0
  label := (Wire.int32? 4 record).getD 1
  type := Wire.int32? 5 record
  typeName := Wire.text 6 record
  oneofIndex := Wire.int32? 9 record
  proto3Optional := Wire.flag 17 record
  jsType := (Wire.int32? 6 (Wire.merged 8 record)).getD 0

def EnumValue.ofRecord (record : List Wire.Field) : EnumValue where
  name := Wire.text 1 record
  number := (Wire.int32? 2 record).getD 0

def Enum.ofRecord (record : List Wire.Field) : Enum where
  name := Wire.text 1 record
  values := (recordsOf 2 record).map EnumValue.ofRecord

/-- A message from its record, with nested messages to the given depth. -/
def Message.ofRecord : (depth : Nat) → List Wire.Field → Message
  | 0, _ => {}
  | depth + 1, record =>
    { name := Wire.text 1 record
      fields := (recordsOf 2 record).map Field.ofRecord
      nested := (recordsOf 3 record).map (Message.ofRecord depth)
      enums := (recordsOf 4 record).map Enum.ofRecord
      extensions := (recordsOf 6 record).map Field.ofRecord
      oneofs := (recordsOf 8 record).map (Wire.text 1)
      mapEntry := Wire.flag 7 (Wire.merged 7 record) }

def Method.ofRecord (record : List Wire.Field) : Method where
  name := Wire.text 1 record
  inputType := Wire.text 2 record
  outputType := Wire.text 3 record
  clientStreaming := Wire.flag 5 record
  serverStreaming := Wire.flag 6 record

def Service.ofRecord (record : List Wire.Field) : Service where
  name := Wire.text 1 record
  methods := (recordsOf 2 record).map Method.ofRecord

def Location.ofRecord (record : List Wire.Field) : Location where
  path := Wire.int32s 1 record
  leadingComments := Wire.text 3 record

def File.ofRecord (record : List Wire.Field) : File where
  name := Wire.text 1 record
  package := Wire.text 2 record
  syntaxName := Wire.text 12 record
  dependencies := Wire.bytesOf 3 record
  messages := (recordsOf 4 record).map (Message.ofRecord Wire.maxDepth)
  enums := (recordsOf 5 record).map Enum.ofRecord
  services := (recordsOf 6 record).map Service.ofRecord
  extensions := (recordsOf 7 record).map Field.ofRecord
  locations := (recordsOf 1 (Wire.merged 9 record)).map Location.ofRecord

end ProtoTypings.Descriptor
