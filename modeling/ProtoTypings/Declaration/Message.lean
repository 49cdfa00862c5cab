import ProtoTypings.Declaration.Basic
import ProtoTypings.Options

set_option autoImplicit false
set_option relaxedAutoImplicit false

/-!
The declarations of a schema file's messages, enums and extensions. They are made in one pass, which
fails at the first field without a type.
-/

namespace ProtoTypings.Declaration

/-- What the declarations of a file depend on besides its elements. -/
structure Context where
  table : SymbolTable
  source : Text
  proto3 : Bool
  options : Options

namespace Context

def ofFile (file : Schema.File) (table : SymbolTable) (options : Options) : Context :=
  ⟨table, file.path, file.isProto3, options⟩

def comment (context : Context) (text : Text) : List Text :=
  docLines context.options.comments text

/-- Whether a field can be asked if it is set: single messages always, other single fields in a
oneof or marked as optional, and all single fields before proto3. -/
def hasPresence (context : Context) (field : Schema.Field) : Bool :=
  !field.isRepeated &&
    (field.kind = .message || field.kind = .group || field.oneof.isSome || field.proto3Optional ||
      !context.proto3)

def nameSuffix (field : Schema.Field) : Text :=
  if field.kind = .map then "Map" else if field.isRepeated then "List" else []

def typeText (context : Context) (field : Schema.Field) : Formatter TypeText :=
  .recording (·.mapField context.table context.source field)

def typedField {α : Type} (context : Context) (field : Schema.Field) (type : α) : Field α :=
  let camel := Identifier.camelCase field.name
  { name := field.name
    number := field.number
    accessorName := Identifier.upperFirst camel ++ nameSuffix field
    objectName := context.options.reserved.escape (camel ++ nameSuffix field)
    isList := field.isRepeated && field.kind ≠ .map
    isMap := field.kind = .map
    isBytes := field.kind = .scalar .bytes
    isMessage := field.kind = .message || field.kind = .group
    hasPresence := context.hasPresence field
    isOptional := field.cardinality ≠ .required
    type
    comment := context.comment field.comments }

def typedExtension {α : Type} (context : Context) (field : Schema.Field) (type : α) :
    Extension α where
  name := Identifier.camelCase field.name
  type
  comment := context.comment field.comments

def declareField (context : Context) (field : Schema.Field) : Formatter (Field TypeText) := do
  let type ← context.typeText field
  return context.typedField field type

def declareExtension (context : Context) (field : Schema.Field) :
    Formatter (Extension TypeText) := do
  let type ← Formatter.located (.extension field.name) (context.typeText field)
  return context.typedExtension field type

def enum (context : Context) (scope : Text) (enum : Schema.Enum) : Enum where
  name := enum.name
  declaredName := Identifier.qualified scope enum.name
  values := enum.values.map fun value =>
    { name := value.name, number := value.number, comment := context.comment value.comments }
  comment := context.comment enum.comments

mutual

def declareMessage (context : Context) (scope : Text) :
    Schema.Message → Formatter (Message TypeText)
  | { name, fields, messages, enums, extensions, comments, .. } => do
    let declaredName := Identifier.qualified scope name
    let fields ← fields.mapM context.declareField
    let messages ← declareNested context declaredName messages
    let extensions ← extensions.mapM context.declareExtension
    return {
      name
      declaredName
      fields
      messages
      enums := enums.map (context.enum declaredName)
      extensions
      comment := context.comment comments }

def declareNested (context : Context) (scope : Text) :
    List Schema.Message → Formatter (List (Message TypeText))
  | [] => return []
  | nested :: rest => do
    let first ← Formatter.located (.nestedMessage nested.name) (declareMessage context scope nested)
    let more ← declareNested context scope rest
    return first :: more

end

def declareFile (context : Context) (file : Schema.File) : Formatter (Outline TypeText) := do
  let messages ← file.messages.mapM fun message =>
    Formatter.located (.message message.name) (context.declareMessage [] message)
  let extensions ← file.extensions.mapM context.declareExtension
  return { messages, enums := file.enums.map (context.enum []), extensions }

end Context

/-- The name under which the runtime library is imported. -/
def runtimeName : Text := "jspb"

def runtimeModule : Text := "google-protobuf"

def topLevelNames (file : Schema.File) : List Text :=
  runtimeName :: (file.messages.map (·.name) ++
    (file.enums.flatMap (fun enum => [enum.name, enum.name ++ Text.ofString "Map"]) ++
      file.extensions.map fun extension => Identifier.camelCase extension.name))

def messageImports (taken : List Text) : Imports :=
  Imports.fixed ⟨true, taken, []⟩ runtimeName runtimeModule

/-- The declarations of a file's messages, enums and extensions. -/
def MessageFile.ofSchema (file : Schema.File) (table : SymbolTable) (options : Options) :
    Except Fault MessageFile := do
  let (outline, imports) ← ((Context.ofFile file table options).declareFile file).run
    (messageImports (topLevelNames file))
  return {
    outline with
    protoFile := file.path
    package := file.package
    imports := imports.entries }

end ProtoTypings.Declaration
