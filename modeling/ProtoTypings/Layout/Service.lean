import ProtoTypings.Declaration.Basic
import ProtoTypings.Fault
import ProtoTypings.Layout.Message

set_option autoImplicit false
set_option relaxedAutoImplicit false

/-!
The text of a file that declares services, and the checks that declarations must pass before they
are laid out.
-/

namespace ProtoTypings.Layout

open Declaration (MessageFile Method Service ServiceFile Shape)

def clientParameters (method : Method) : List (List Text) :=
  let request : Text := "request: " ++ method.requestType
  let callback : Text := "callback: (error: grpc.ServiceError | null, response: " ++
    method.responseType ++ ") => void"
  let metadata : Text := "metadata: grpc.Metadata"
  let options : Text := "options: Partial<grpc.CallOptions>"
  let maybeMetadata : Text := "metadata?: grpc.Metadata"
  let maybeOptions : Text := "options?: Partial<grpc.CallOptions>"
  match method.shape with
  | .unary =>
    [[request, callback], [request, metadata, callback], [request, metadata, options, callback]]
  | .serverStreaming => [[request, maybeOptions], [request, maybeMetadata, maybeOptions]]
  | .clientStreaming =>
    [[callback], [metadata, callback], [options, callback], [metadata, options, callback]]
  | .bidirectional => [[], [options], [metadata, maybeOptions]]
  | .other _ => []

def clientOverloads (method : Method) : List Text :=
  (clientParameters method).map fun parameters =>
    method.fieldName ++ "(" ++ Text.join ", " parameters ++ "): " ++ method.call ++ ";"

def methodInterface (service : Text) (method : Method) : Text :=
  let request := method.requestType
  let response := method.responseType
  block [
    [],
    "interface I" ++ service ++ "Service_I" ++ method.name ++ " extends grpc.MethodDefinition<" ++
      request ++ ", " ++ response ++ "> \x7b",
    "  path: \"" ++ method.path ++ "\";",
    "  requestStream: " ++ Text.ofBool method.requestStream ++ ";",
    "  responseStream: " ++ Text.ofBool method.responseStream ++ ";",
    "  requestSerialize: grpc.serialize<" ++ request ++ ">;",
    "  requestDeserialize: grpc.deserialize<" ++ request ++ ">;",
    "  responseSerialize: grpc.serialize<" ++ response ++ ">;",
    "  responseDeserialize: grpc.deserialize<" ++ response ++ ">;",
    "\x7d"]

def service (js : Bool) (service : Service Method) : Text :=
  let name := service.name
  let overloads := service.methods.flatMap clientOverloads
  let implementation : Text := if js then " extends grpc.UntypedServiceImplementation" else []
  let clientOptions : Text := if js then "Partial<grpc.ClientOptions>" else "object"
  docBlock service.comment ++
    block ["interface I" ++ name ++
      "Service extends grpc.ServiceDefinition<grpc.UntypedServiceImplementation> \x7b"] ++
    block (service.methods.map fun method =>
      "  " ++ method.fieldName ++ ": I" ++ name ++ "Service_I" ++ method.name ++ ";") ++
    block ["\x7d"] ++
    service.methods.flatMap (methodInterface name) ++
    block [
      [],
      "export const " ++ name ++ "Service: I" ++ name ++ "Service;",
      [],
      "export interface I" ++ name ++ "Server" ++ implementation ++ " \x7b"] ++
    service.methods.flatMap (fun method => indent 2 (docBlock method.comment) ++
      block ["  " ++ method.fieldName ++ ": " ++ method.handler ++ ";"]) ++
    block [
      "\x7d",
      [],
      "export interface I" ++ name ++ "Client \x7b"] ++
    block (overloads.map fun overload => "  " ++ overload) ++
    block [
      "\x7d",
      [],
      "export class " ++ name ++ "Client extends grpc.Client implements I" ++ name ++ "Client \x7b",
      "  constructor(address: string, credentials: grpc.ChannelCredentials, options?: " ++
        clientOptions ++ ");"] ++
    block (overloads.map fun overload => "  public " ++ overload) ++
    block ["\x7d"]

def serviceFile (file : ServiceFile) : Text :=
  Text.join [Text.newline] ("// GENERATED CODE -- DO NOT EDIT!" :: [] ::
      fileHeader file.package file.protoFile) ++
    block (importLines file.imports) ++
    block (file.services.map (service file.grpcJs)) ++
    [Text.newline]

/-- Refuses to lay out declarations. -/
def refuse (layout file reason : Text) : Except Fault Text :=
  .error (.unrenderable layout file (.stated reason))

def renderMessages (file : MessageFile) : Except Fault Text :=
  if file.protoFile = [] then refuse "msg_tsd" [] "model has no schema file"
  else .ok (messageFile file)

/-- The text of service declarations that belong to a schema file, are not empty and name their
runtime module. -/
def renderServices (file : ServiceFile) : Except Fault Text :=
  if file.protoFile = [] then refuse "svc_tsd" [] "model has no schema file"
  else if file.services.isEmpty then refuse "svc_tsd" file.protoFile "model has no services"
  else if file.grpcModule = [] then refuse "svc_tsd" file.protoFile "model has no grpc module"
  else .ok (serviceFile file)

end ProtoTypings.Layout
