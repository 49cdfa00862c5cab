import ProtoTypings.Text.Basic

set_option autoImplicit false
set_option relaxedAutoImplicit false

/-!
Schema files in the form from which declarations are made: map entries are folded into the fields
that use them, fields know their oneof, and every element carries its comment.
-/

namespace ProtoTypings.Schema

/-- The types of single values that name no declaration. -/
inductive Scalar where
  | double
  | float
  | int32
  | int64
  | uint32
  | uint64
  | sint32
  | sint64
  | fixed32
  | fixed64
  | sfixed32
  | sfixed64
  | bool
  | string
  | bytes
  deriving DecidableEq, Repr

/-- What a field holds. A group is declared and referenced like a nested message. -/
inductive FieldKind where
  | invalid
  | scalar (type : Scalar)
  | enum
  | message
  | group
  | map
  | unknown (code : Int)
  deriving DecidableEq, Repr, Inhabited

namespace FieldKind

def enumeration : Enumeration :=
  ⟨"FieldKind",
    ["invalid", "double", "float", "int32", "int64", "uint32", "uint64", "sint32", "sint64",
      "fixed32", "fixed64", "sfixed32", "sfixed64", "bool", "string", "bytes", "enum", "message",
      "group", "map"]⟩

/-- All kinds with a name, in order of their numbers. -/
def named : List FieldKind :=
  [.invalid, .scalar .double, .scalar .float, .scalar .int32, .scalar .int64, .scalar .uint32,
    .scalar .uint64, .scalar .sint32, .scalar .sint64, .scalar .fixed32, .scalar .fixed64,
    .scalar .sfixed32, .scalar .sfixed64, .scalar .bool, .scalar .string, .scalar .bytes, .enum,
    .message, .group, .map]

def ofCode (code : Int) : FieldKind :=
  match code with
  | .ofNat n => named[n]?.getD (.unknown code)
  | .negSucc _ => .unknown code

def code : FieldKind → Int
  | .unknown code => code
  | kind => named.idxOf kind

def name (kind : FieldKind) : Text := enumeration.nameOf kind.code

/-- Whether fields of this kind name a declaration. -/
def isReference : FieldKind → Bool
  | .enum | .message | .group => true
  | _ => false

end FieldKind

inductive Cardinality where
  | optional
  | required
  | repeated
  deriving DecidableEq, Repr, Inhabited

namespace Cardinality

def enumeration : Enumeration := ⟨"Cardinality", ["optional", "required", "repeated"]⟩

def code : Cardinality → Int
  | .optional => 0
  | .required => 1
  | .repeated => 2

/-- The cardinality with a number; numbers without one mean an optional field. -/
def ofCode (code : Int) : Cardinality :=
  if code = 1 then .required else if code = 2 then .repeated else .optional

end Cardinality

inductive JsType where
  | normal
  | string
  | number
  deriving DecidableEq, Repr, Inhabited

def JsType.code : JsType → Int
  | .normal => 0
  | .string => 1
  | .number => 2

/-- A group of fields of which at most one is set. A synthetic one only marks an optional field. -/
structure Oneof where
  name : Text := []
  synthetic : Bool := false
  deriving DecidableEq, Repr

structure MapEntry (α : Type) where
  key : Option α := none
  value : Option α := none

structure Field where
  name : Text := []
  number : Int := 0
  kind : FieldKind := .invalid
  cardinality : Cardinality := .optional
  /-- The full name of the enum or message that the field holds. -/
  typeName : Text := []
  map : Option (MapEntry Field) := none
  oneof : Option Oneof := none
  proto3Optional : Bool := false
  jsType : JsType := .normal
  /-- The full name of the message that an extension extends. -/
  extendee : Text := []
  comments : Text := []
  deriving Inhabited

structure EnumValue where
  name : Text := []
  number : Int := 0
  comments : Text := []
  deriving DecidableEq, Repr

structure Enum where
  name : Text := []
  fullName : Text := []
  values : List EnumValue := []
  comments : Text := []
  deriving DecidableEq, Repr

structure Message where
  name : Text := []
  /-- The name by which references to the message call it, with a leading dot. -/
  fullName : Text := []
  fields : List Field := []
  messages : List Message := []
  enums : List Enum := []
  oneofs : List Oneof := []
  extensions : List Field := []
  comments : Text := []
  deriving Inhabited

structure Method where
  name : Text := []
  inputType : Text := []
  outputType : Text := []
  clientStreaming : Bool := false
  serverStreaming : Bool := false
  comments : Text := []
  deriving DecidableEq, Repr

structure Service where
  name : Text := []
  fullName : Text := []
  methods : List Method := []
  comments : Text := []
  deriving DecidableEq, Repr

structure File where
  path : Text := []
  package : Text := []
  syntaxName : Text := []
  dependencies : List Text := []
  messages : List Message := []
  enums : List Enum := []
  services : List Service := []
  extensions : List Field := []

def File.isProto3 (file : File) : Bool := file.syntaxName = Text.ofString "proto3"

def Field.isRepeated (field : Field) : Bool := field.cardinality = .repeated

/-- Whether a field shares a oneof that is more than the mark of an optional field. -/
def Field.inRealOneof (field : Field) : Bool :=
  match field.oneof with
  | some oneof => !oneof.synthetic
  | none => false

end ProtoTypings.Schema
