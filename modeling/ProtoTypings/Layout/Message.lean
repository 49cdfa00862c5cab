import ProtoTypings.Declaration.Basic
import ProtoTypings.Text.Basic

set_option autoImplicit false
set_option relaxedAutoImplicit false

/-!
The text of a file that declares messages, enums and extensions. It is made of blocks, and a block
starts with the line end before its first line, so that blocks are put together by writing them one
after the other. A declaration that is a line of a further block has an empty line before it.
-/

namespace ProtoTypings.Layout

open Declaration (Extension Enum EnumValue Message MessageFile)

def block (lines : List Text) : Text := lines.flatMap fun line => Text.newline :: line

/-- A line moved to the right; an empty line stays empty. -/
def shift (columns : Nat) (line : Text) : Text :=
  if line = [] then [] else List.replicate columns 32 ++ line

def indent (columns : Nat) (s : Text) : Text :=
  Text.join [Text.newline] ((Text.split Text.newline s).map (shift columns))

def starred (line : Text) : Text := if line = [] then " *" else " * " ++ line

/-- A doc comment of the given lines; nothing if there are none. -/
def docBlock (lines : List Text) : Text :=
  if lines = [] then [] else block ["/**"] ++ block (lines.map starred) ++ block [" */"]

def mapAccessors (field : Declaration.Field TypeText) : List Text :=
  let name := field.accessorName
  ["get" ++ name ++ "(): " ++ field.type.value ++ ";",
    "clear" ++ name ++ "(): void;"]

def listAccessors (owner : Text) (field : Declaration.Field TypeText) : List Text :=
  let name := field.accessorName
  let element := field.type.element
  let optional : Text := if field.isMessage then "?" else []
  ["clear" ++ name ++ "(): void;",
    "get" ++ name ++ "(): " ++ field.type.value ++ ";"] ++
  (if field.isBytes then
    ["get" ++ name ++ "_asU8(): Array<Uint8Array>;",
      "get" ++ name ++ "_asB64(): Array<string>;"]
  else []) ++
  ["set" ++ name ++ "(value: " ++ field.type.value ++ "): " ++ owner ++ ";",
    "add" ++ Text.trimEnd "List" name ++ "(value" ++ optional ++ ": " ++ element ++
      ", index?: number): " ++ element ++ ";"]

def singleAccessors (owner : Text) (field : Declaration.Field TypeText) : List Text :=
  let name := field.accessorName
  let type := field.type.value
  (if field.hasPresence then
    ["has" ++ name ++ "(): boolean;",
      "clear" ++ name ++ "(): void;"]
  else []) ++
  (if field.isMessage then
    ["get" ++ name ++ "(): " ++ type ++ " | undefined;",
      "set" ++ name ++ "(value?: " ++ type ++ "): " ++ owner ++ ";"]
  else if field.isBytes then
    ["get" ++ name ++ "(): " ++ type ++ ";",
      "get" ++ name ++ "_asU8(): Uint8Array;",
      "get" ++ name ++ "_asB64(): string;",
      "set" ++ name ++ "(value: " ++ type ++ "): " ++ owner ++ ";"]
  else
    ["get" ++ name ++ "(): " ++ type ++ ";",
      "set" ++ name ++ "(value: " ++ type ++ "): " ++ owner ++ ";"])

/-- The accessors of a field of the message declared as `owner`. -/
def accessors (owner : Text) (field : Declaration.Field TypeText) : List Text :=
  if field.isMap then mapAccessors field
  else if field.isList then listAccessors owner field
  else singleAccessors owner field

def classMember (owner : Text) (field : Declaration.Field TypeText) : Text :=
  indent 2 (docBlock field.comment) ++ block ((accessors owner field).map fun a => "  " ++ a)

def objectMember (field : Declaration.Field TypeText) : Text :=
  let optional : Text := if field.isOptional then "?" else []
  "    " ++ field.objectName ++ optional ++ ": " ++ field.type.object ++ ","

/-- The members that every message's class has. -/
def commonMembers (name : Text) : List Text :=
  ["  serializeBinary(): Uint8Array;",
    "  toObject(includeInstance?: boolean): " ++ name ++ ".AsObject;",
    "  static toObject(includeInstance: boolean, msg: " ++ name ++ "): " ++ name ++ ".AsObject;",
    "  static extensions: \x7b[key: number]: jspb.ExtensionFieldInfo<jspb.Message>\x7d;",
    "  static extensionsBinary: " ++
      Text.ofString "\x7b[key: number]: jspb.ExtensionFieldBinaryInfo<jspb.Message>\x7d;",
    "  static serializeBinaryToWriter(message: " ++ name ++ ", writer: jspb.BinaryWriter): void;",
    "  static deserializeBinary(bytes: Uint8Array): " ++ name ++ ";",
    "  static deserializeBinaryFromReader(message: " ++ name ++
      ", reader: jspb.BinaryReader): " ++ name ++ ";"]

def enumValue (value : EnumValue) : Text :=
  indent 2 (docBlock value.comment) ++
    block ["  " ++ value.name ++ ": " ++ Text.ofInt value.number ++ ";"]

def enumHeader (name : Text) : Text := "export interface " ++ name ++ "Map \x7b"

def enum (enum : Enum) : Text :=
  docBlock enum.comment ++
    block [enumHeader enum.name] ++
    enum.values.flatMap enumValue ++
    block ["\x7d", [], "export const " ++ enum.name ++ ": " ++ enum.name ++ "Map;"]

def extension (extension : Extension TypeText) : Text :=
  docBlock extension.comment ++
    block ["export const " ++ extension.name ++ ": jspb.ExtensionFieldInfo<" ++
      extension.type.value ++ ">;"]

def classHeader (name : Text) : Text := "export class " ++ name ++ " extends jspb.Message \x7b"

mutual

/-- A message: its class, and the namespace with its object type and everything declared inside. -/
def message : Message TypeText → Text
  | { name, declaredName, fields, messages, enums, extensions, comment } =>
    docBlock comment ++
      block [classHeader name] ++
      fields.flatMap (classMember declaredName) ++
      block (commonMembers declaredName) ++
      block ["\x7d", [], "export namespace " ++ name ++ " \x7b", "  export type AsObject = \x7b"] ++
      block (fields.map objectMember) ++
      block ["  \x7d"] ++
      nestedMessages messages ++
      block (enums.map fun e => indent 2 (enum e)) ++
      block (extensions.map fun e => indent 2 (extension e)) ++
      block ["\x7d"]

def nestedMessages : List (Message TypeText) → Text
  | [] => []
  | nested :: rest => block [indent 2 (message nested)] ++ nestedMessages rest

end

def importLines (imports : List Import) : List Text :=
  imports.map fun entry => "import * as " ++ entry.name ++ " from \"" ++ entry.path ++ "\";"

def fileHeader (package protoFile : Text) : List Text :=
  ["// package: " ++ package,
    "// file: " ++ protoFile,
    [],
    "/* tslint:disable */",
    "/* eslint-disable */",
    []]

def messageFile (file : MessageFile) : Text :=
  Text.join [Text.newline] (fileHeader file.package file.protoFile) ++
    block (importLines file.imports) ++
    block (file.messages.map message) ++
    block (file.enums.map enum) ++
    block (file.extensions.map extension) ++
    [Text.newline]

end ProtoTypings.Layout
