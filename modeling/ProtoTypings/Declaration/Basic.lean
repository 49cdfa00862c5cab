import ProtoTypings.FieldType
import ProtoTypings.Text.Basic

set_option autoImplicit false
set_option relaxedAutoImplicit false

/-!
The declarations of one generated file as data. Messages are generic in what stands for the type of
a field, which in the finished declarations is a `TypeText`.
-/

namespace ProtoTypings.Declaration

structure Field (α : Type) where
  name : Text := []
  number : Int := 0
  /-- What follows `get`, `set`, `has` and `clear`. -/
  accessorName : Text := []
  /-- The key in plain objects. -/
  objectName : Text := []
  isList : Bool := false
  isMap : Bool := false
  isBytes : Bool := false
  isMessage : Bool := false
  /-- Whether there is a way to ask if the field is set. -/
  hasPresence : Bool := false
  /-- Whether the field may be missing from plain objects. -/
  isOptional : Bool := false
  type : α
  comment : List Text := []

structure Extension (α : Type) where
  name : Text := []
  type : α
  comment : List Text := []

structure EnumValue where
  name : Text := []
  number : Int := 0
  comment : List Text := []
  deriving DecidableEq, Repr

structure Enum where
  name : Text := []
  /-- The name inside those of the enclosing messages. -/
  declaredName : Text := []
  values : List EnumValue := []
  comment : List Text := []
  deriving DecidableEq, Repr

structure Message (α : Type) where
  name : Text := []
  declaredName : Text := []
  fields : List (Field α) := []
  messages : List (Message α) := []
  enums : List Enum := []
  extensions : List (Extension α) := []
  comment : List Text := []
  deriving Inhabited

/-- Everything that a schema file declares but its services. -/
structure Outline (α : Type) where
  messages : List (Message α) := []
  enums : List Enum := []
  extensions : List (Extension α) := []

structure MessageFile extends Outline TypeText where
  protoFile : Text := []
  package : Text := []
  imports : List Import := []

/-- Who sends a stream of messages in a call. -/
inductive Shape where
  | unary
  | clientStreaming
  | serverStreaming
  | bidirectional
  | other (label : Text)
  deriving DecidableEq, Repr

def Shape.ofStreams (requestStream responseStream : Bool) : Shape :=
  match requestStream, responseStream with
  | true, true => .bidirectional
  | true, false => .clientStreaming
  | false, true => .serverStreaming
  | false, false => .unary

def Shape.label : Shape → Text
  | .unary => "unary"
  | .clientStreaming => "client_streaming"
  | .serverStreaming => "server_streaming"
  | .bidirectional => "bidi"
  | .other label => label

def Shape.ofLabel (label : Text) : Shape :=
  ([.unary, .clientStreaming, .serverStreaming, .bidirectional].find? fun shape : Shape =>
    decide (shape.label = label)).getD (.other label)

structure Method where
  name : Text := []
  /-- The name of handlers and client methods. -/
  fieldName : Text := []
  /-- The path of the method on the wire. -/
  path : Text := []
  shape : Shape := .unary
  requestStream : Bool := false
  responseStream : Bool := false
  requestType : Text := []
  responseType : Text := []
  /-- The type of handlers on the server. -/
  handler : Text := []
  /-- The type of calls on the client. -/
  call : Text := []
  comment : List Text := []
  deriving DecidableEq, Repr

structure Service (α : Type) where
  name : Text := []
  /-- The full name without a leading dot. -/
  fullName : Text := []
  methods : List α := []
  comment : List Text := []

structure ServiceFile where
  protoFile : Text := []
  package : Text := []
  /-- The runtime module that is imported as `grpc`. -/
  grpcModule : Text := []
  /-- Whether that module is the one written in JavaScript. -/
  grpcJs : Bool := false
  imports : List Import := []
  services : List (Service Method) := []

inductive Presence where
  | absent
  | present
  deriving DecidableEq, Repr

namespace Presence

def enumeration : Enumeration := ⟨"ResultKind", ["absent", "present"]⟩

def code : Presence → Int
  | .absent => 0
  | .present => 1

def name (presence : Presence) : Text := enumeration.nameOf presence.code

end Presence

structure FileDeclarations where
  messages : MessageFile
  services : Option ServiceFile

/-- Separates every star from a slash after it by a backslash, so that no text ends the comment it
stands in. -/
def escapeTerminator : Text → Text
  | [] => []
  | [b] => [b]
  | b :: c :: rest =>
    if b = 42 && c = Text.slash then 42 :: 92 :: Text.slash :: escapeTerminator rest
    else b :: escapeTerminator (c :: rest)

def isSpacing (b : UInt8) : Bool := b = 32 || b = 9

/-- A line of a comment without spacing at its end and without one space in front. -/
def docLine (line : Text) : Text :=
  escapeTerminator (Text.trimStart " " (line.reverse.dropWhile isSpacing).reverse)

/-- The lines of a doc comment; none if comments are not wanted or there is no text. -/
def docLines (wanted : Bool) (text : Text) : List Text :=
  if wanted && text ≠ [] then (Text.split Text.newline text).map docLine else []

end ProtoTypings.Declaration
