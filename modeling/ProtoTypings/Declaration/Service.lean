import ProtoTypings.Declaration.Basic
import ProtoTypings.Options

set_option autoImplicit false
set_option relaxedAutoImplicit false

/-!
The declarations of a schema file's services, made in one pass like those of its messages.
-/

namespace ProtoTypings.Declaration

/-- The name under which the gRPC runtime is imported. -/
def grpcName : Text := "grpc"

def handlerType (shape : Shape) (request response : Text) : Text :=
  let arguments : Text := "<" ++ request ++ ", " ++ response ++ ">"
  match shape with
  | .unary => "grpc.handleUnaryCall" ++ arguments
  | .clientStreaming => "grpc.handleClientStreamingCall" ++ arguments
  | .serverStreaming => "grpc.handleServerStreamingCall" ++ arguments
  | .bidirectional => "grpc.handleBidiStreamingCall" ++ arguments
  | .other _ => []

def callType (shape : Shape) (request response : Text) : Text :=
  match shape with
  | .unary => "grpc.ClientUnaryCall"
  | .clientStreaming => "grpc.ClientWritableStream<" ++ request ++ ">"
  | .serverStreaming => "grpc.ClientReadableStream<" ++ response ++ ">"
  | .bidirectional => "grpc.ClientDuplexStream<" ++ request ++ ", " ++ response ++ ">"
  | .other _ => []

def Method.typed (comments : Bool) (service : Text) (method : Schema.Method)
    (request response : Text) : Method :=
  let shape := Shape.ofStreams method.clientStreaming method.serverStreaming
  { name := method.name
    fieldName := Identifier.lowerFirst method.name
    path := Text.slash :: (service ++ Text.slash :: method.name)
    shape
    requestStream := method.clientStreaming
    responseStream := method.serverStreaming
    requestType := request
    responseType := response
    handler := handlerType shape request response
    call := callType shape request response
    comment := docLines comments method.comments }

def Method.declare (table : SymbolTable) (source : Text) (options : Options) (service : Text)
    (method : Schema.Method) : Formatter Method := do
  let request ← Formatter.located .requestType
    (.recording (·.mapMessage table source method.inputType))
  let response ← Formatter.located .responseType
    (.recording (·.mapMessage table source method.outputType))
  return Method.typed options.comments service method request response

def Service.declare (table : SymbolTable) (source : Text) (options : Options)
    (service : Schema.Service) : Formatter (Service Method) := do
  let fullName := Text.trimStart [Text.dot] service.fullName
  let methods ← service.methods.mapM fun method =>
    Formatter.located (.method service.name method.name)
      (Method.declare table source options fullName method)
  return {
    name := service.name
    fullName
    methods
    comment := docLines options.comments service.comments }

def serviceNames (name : Text) : List Text :=
  ["I" ++ name ++ "Service", name ++ "Service", "I" ++ name ++ "Server", "I" ++ name ++ "Client",
    name ++ "Client"]

def grpcRuntime (js : Bool) : Text := if js then "@grpc/grpc-js" else "grpc"

def runtimeImports (js : Bool) (taken : List Text) : Imports :=
  Imports.fixed ⟨false, taken ++ [grpcName], []⟩ grpcName (grpcRuntime js)

/-- The declarations of a file's services, if it has any. -/
def ServiceFile.ofSchema (file : Schema.File) (table : SymbolTable) (options : Options) :
    Except Fault (Option ServiceFile) := do
  if file.services.isEmpty then return none
  let taken := file.services.flatMap fun service => serviceNames service.name
  let (services, imports) ← (file.services.mapM (Service.declare table file.path options)).run
    (runtimeImports options.grpcJs taken)
  return some {
    protoFile := file.path
    package := file.package
    grpcModule := grpcRuntime options.grpcJs
    grpcJs := options.grpcJs
    imports := imports.entries
    services }

end ProtoTypings.Declaration
