import ProtoTypings.Data.Basic
import ProtoTypings.Declaration.Basic

set_option autoImplicit false
set_option relaxedAutoImplicit false

/-!
Declarations as plain structured values. A member that is false, empty or missing is left out where
nothing is lost by it.
-/

namespace ProtoTypings.Declaration

def member (name : String) (value : Data) : Text × Data := (name, value)

def textMember (name : String) (s : Text) : Text × Data := member name (.text s)

def textMember? (name : String) (s : Text) : List (Text × Data) :=
  if s = [] then [] else [textMember name s]

def flagMember? (name : String) (b : Bool) : List (Text × Data) :=
  if b then [member name (.boolean true)] else []

def listMember? (name : String) (items : List Data) : List (Text × Data) :=
  if items.isEmpty then [] else [member name (.list items)]

def commentMember? (lines : List Text) : List (Text × Data) :=
  listMember? "comment" (lines.map .text)

def typeData (type : TypeText) : Data :=
  .object ([textMember "ts" type.value, textMember "object" type.object] ++
    textMember? "elem" type.element)

def Field.data (field : Field TypeText) : Data :=
  .object ([textMember "name" field.name, member "number" (.integer field.number),
      textMember "accessorName" field.accessorName, textMember "objectName" field.objectName] ++
    flagMember? "repeated" field.isList ++ flagMember? "map" field.isMap ++
    flagMember? "bytes" field.isBytes ++ flagMember? "message" field.isMessage ++
    flagMember? "hasPresence" field.hasPresence ++ flagMember? "optional" field.isOptional ++
    [member "type" (typeData field.type)] ++ commentMember? field.comment)

def Extension.data (extension : Extension TypeText) : Data :=
  .object ([textMember "name" extension.name, textMember "type" extension.type.value] ++
    commentMember? extension.comment)

def EnumValue.data (value : EnumValue) : Data :=
  .object ([textMember "name" value.name, member "number" (.integer value.number)] ++
    commentMember? value.comment)

/-- An enum. The values of an enum without any are null. -/
def Enum.data (enum : Enum) : Data :=
  .object ([textMember "name" enum.name, textMember "declName" enum.declaredName,
      member "values" (if enum.values.isEmpty then .null else .list (enum.values.map (·.data)))] ++
    commentMember? enum.comment)

mutual

def Message.data : Message TypeText → Data
  | { name, declaredName, fields, messages, enums, extensions, comment } =>
    .object ([textMember "name" name, textMember "declName" declaredName] ++
      listMember? "fields" (fields.map (·.data)) ++
      listMember? "messages" (Message.dataOfAll messages) ++
      listMember? "enums" (enums.map (·.data)) ++
      listMember? "extensions" (extensions.map (·.data)) ++ commentMember? comment)

def Message.dataOfAll : List (Message TypeText) → List Data
  | [] => []
  | message :: rest => message.data :: Message.dataOfAll rest

end

def importsData (imports : List Import) : Data :=
  .list (imports.map fun entry =>
    .object [textMember "namespace" entry.name, textMember "path" entry.path])

def MessageFile.data (file : MessageFile) : Data :=
  .object ([textMember "protoFile" file.protoFile] ++ textMember? "package" file.package ++
    [member "imports" (importsData file.imports)] ++
    listMember? "messages" (Message.dataOfAll file.messages) ++
    listMember? "enums" (file.enums.map (·.data)) ++
    listMember? "extensions" (file.extensions.map (·.data)))

def Method.data (method : Method) : Data :=
  .object ([textMember "name" method.name, textMember "fieldName" method.fieldName,
      textMember "path" method.path, textMember "shape" method.shape.label,
      member "requestStream" (.boolean method.requestStream),
      member "responseStream" (.boolean method.responseStream),
      textMember "requestType" method.requestType, textMember "responseType" method.responseType,
      textMember "handler" method.handler, textMember "call" method.call] ++
    commentMember? method.comment)

def Service.data (service : Service Method) : Data :=
  .object ([textMember "name" service.name, textMember "fullName" service.fullName] ++
    listMember? "methods" (service.methods.map (·.data)) ++ commentMember? service.comment)

def ServiceFile.data (file : ServiceFile) : Data :=
  .object ([textMember "protoFile" file.protoFile] ++ textMember? "package" file.package ++
    [textMember "grpcModule" file.grpcModule] ++ flagMember? "grpcJS" file.grpcJs ++
    [member "imports" (importsData file.imports),
      member "services" (.list (file.services.map (·.data)))])

def FileDeclarations.data (path : Text) (declarations : FileDeclarations) : Data :=
  .object ([textMember "file" path, member "messages" declarations.messages.data] ++
    match declarations.services with
    | some services => [member "services" services.data]
    | none => [])

end ProtoTypings.Declaration
