import ProtoTypings.Descriptor
import ProtoTypings.Fault
import ProtoTypings.Schema.Basic
import ProtoTypings.Text.Basic

set_option autoImplicit false
set_option relaxedAutoImplicit false

/-!
Schema files from their descriptors. Comments are found by the path of the element they stand
before, which alternates between the number of a list in the descriptor and an index into that list;
`ListNumber` has these numbers. Failures are a file without a name, an index of a oneof that is not
there, and a map entry without key or value.
-/

namespace ProtoTypings.Schema

/-- The path of an element in a list of the element with the given path. -/
def childPath (path : List Int) (list : Nat) (index : Nat) : List Int :=
  path ++ [(list : Int), (index : Int)]

def trimmedComment (location : Descriptor.Location) : Text := Blank.trim location.leadingComments

/-- The key under which the comment for a path is kept: its numbers with blanks between them, in
brackets. -/
def pathKey (path : List Int) : Text :=
  "[" ++ Text.join " " (path.map Text.ofInt) ++ "]"

/-- The comment of the element with a path: that of the last location with the key of this path
whose comment is not blank. -/
def commentAt (locations : List Descriptor.Location) (path : List Int) : Text :=
  let key := pathKey path
  match locations.findRev? fun l =>
    decide (pathKey l.path = key) && decide (trimmedComment l ≠ []) with
  | some location => trimmedComment location
  | none => []

namespace ListNumber

def fileMessages : Nat := 4
def fileEnums : Nat := 5
def fileServices : Nat := 6
def fileExtensions : Nat := 7
def fields : Nat := 2
def nestedMessages : Nat := 3
def nestedEnums : Nat := 4
def nestedExtensions : Nat := 6
def enumValues : Nat := 2
def methods : Nat := 2

end ListNumber

def FieldKind.ofType : Int → FieldKind
  | 1 => .scalar .double
  | 2 => .scalar .float
  | 3 => .scalar .int64
  | 4 => .scalar .uint64
  | 5 => .scalar .int32
  | 6 => .scalar .fixed64
  | 7 => .scalar .fixed32
  | 8 => .scalar .bool
  | 9 => .scalar .string
  | 10 => .group
  | 11 => .message
  | 12 => .scalar .bytes
  | 13 => .scalar .uint32
  | 14 => .enum
  | 15 => .scalar .sfixed32
  | 16 => .scalar .sfixed64
  | 17 => .scalar .sint32
  | 18 => .scalar .sint64
  | _ => .invalid

def Cardinality.ofLabel (label : Int) : Cardinality :=
  if label = 2 then .required else if label = 3 then .repeated else .optional

def JsType.ofCode (code : Int) : JsType :=
  if code = 1 then .string else if code = 2 then .number else .normal

/-- The member of a list at an index, if the index lies in the list. -/
def at? {α : Type} (xs : List α) : Int → Option α
  | .ofNat n => xs[n]?
  | .negSucc _ => none

def oneofOf (oneofs : List Oneof) (raw : Descriptor.Field) : Except Fault (Option Oneof) :=
  match raw.oneofIndex with
  | none => .ok none
  | some index =>
    match at? oneofs index with
    | some oneof => .ok (some oneof)
    | none => .error (.oneofIndex index oneofs.length)

/-- A field as its descriptor has it, with its oneof and comment. -/
def Field.plain (oneofs : List Oneof) (comments : Text) (raw : Descriptor.Field) :
    Except Fault Field :=
  match oneofOf oneofs raw with
  | .error fault => .error fault
  | .ok oneof => .ok
    { name := raw.name
      number := raw.number
      kind := (raw.type.map FieldKind.ofType).getD .invalid
      cardinality := .ofLabel raw.label
      typeName := raw.typeName
      oneof
      proto3Optional := raw.proto3Optional
      jsType := .ofCode raw.jsType
      extendee := raw.extendee
      comments }

def Field.inOneof (field : Field) (oneof : Option Oneof) : Field := { field with oneof }

/-- Key and value of the map that a map entry stands for: its fields with the numbers 1 and 2. -/
def MapEntry.ofDescriptor (entry : Descriptor.Message) : Except Fault (MapEntry Field) :=
  match entry.fields.mapM (Field.plain [] []) with
  | .error fault => .error fault
  | .ok fields =>
    let key := fields.findRev? (·.number = 1)
    let value := fields.findRev? (·.number = 2)
    if key.isSome && value.isSome then .ok ⟨key, value⟩
    else .error (.incompleteMapEntry entry.name)

/-- The nested map entry with a full name; of several the last one. -/
def findMapEntry (fullName : Text) (nested : List Descriptor.Message) (typeName : Text) :
    Option Descriptor.Message :=
  nested.findRev? fun m => m.mapEntry && decide (fullName ++ Text.dot :: m.name = typeName)

/-- A field of a message. A repeated field whose type is a map entry of that message becomes a
map. -/
def Field.ofDescriptor (oneofs : List Oneof) (findEntry : Text → Option Descriptor.Message)
    (comments : Text) (raw : Descriptor.Field) : Except Fault Field :=
  match Field.plain oneofs comments raw with
  | .error fault => .error fault
  | .ok field =>
    if field.kind = .message && field.isRepeated then
      match findEntry field.typeName with
      | none => .ok field
      | some entry =>
        match MapEntry.ofDescriptor entry with
        | .error fault => .error fault
        | .ok map => .ok { field with kind := .map, map := some map }
    else .ok field

def Enum.ofDescriptor (locations : List Descriptor.Location) (scope : Text) (path : List Int)
    (raw : Descriptor.Enum) : Enum where
  name := raw.name
  fullName := scope ++ Text.dot :: raw.name
  values := raw.values.zipIdx.map fun (value, index) =>
    { name := value.name
      number := value.number
      comments := commentAt locations (childPath path ListNumber.enumValues index) }
  comments := commentAt locations path

def enumsOf (locations : List Descriptor.Location) (scope : Text) (path : List Int) (list : Nat)
    (raws : List Descriptor.Enum) : List Enum :=
  raws.zipIdx.map fun (raw, index) =>
    Enum.ofDescriptor locations scope (childPath path list index) raw

/-- The extensions of a list with the given number. They belong to no oneof and are no maps. -/
def extensionsOf (locations : List Descriptor.Location) (path : List Int) (list : Nat)
    (raws : List Descriptor.Field) : Except Fault (List Field) :=
  raws.zipIdx.mapM fun (raw, index) =>
    Fault.located (.extensionField raw.name)
      (Field.plain [] (commentAt locations (childPath path list index)) raw)

def fieldAt (locations : List Descriptor.Location) (path : List Int) (oneofs : List Oneof)
    (findEntry : Text → Option Descriptor.Message) : Descriptor.Field × Nat → Except Fault Field
  | (raw, place) =>
    Fault.located (.field raw.name)
      (Field.ofDescriptor oneofs findEntry
        (commentAt locations (childPath path ListNumber.fields place)) raw)

/-- A message's oneofs, and the fields that have been converted so far. The oneofs are shared: a
field comes with the index of its own, since a mark that a later field sets is seen by all of
them. -/
structure FieldDraft where
  oneofs : List Oneof
  fields : List (Field × Option Int) := []

/-- The oneofs after the one at an index has been marked as synthetic. -/
def markSynthetic (oneofs : List Oneof) : Int → List Oneof
  | .ofNat n => oneofs.modify n fun oneof => { oneof with synthetic := true }
  | .negSucc _ => oneofs

namespace FieldDraft

/-- Takes in a field. A proto3 optional one marks the oneof that it is in. -/
def add (draft : FieldDraft) (field : Field) (index : Option Int) : FieldDraft where
  oneofs :=
    if field.proto3Optional then index.elim draft.oneofs (markSynthetic draft.oneofs)
    else draft.oneofs
  fields := draft.fields ++ [(field, index)]

def convert (locations : List Descriptor.Location) (path : List Int)
    (findEntry : Text → Option Descriptor.Message) (draft : FieldDraft)
    (placed : Descriptor.Field × Nat) : Except Fault FieldDraft := do
  let field ← fieldAt locations path draft.oneofs findEntry placed
  return draft.add field placed.1.oneofIndex

/-- The converted fields, each with its oneof as it is now. -/
def settled (draft : FieldDraft) : List Field :=
  draft.fields.map fun (field, index) => field.inOneof (index.bind (at? draft.oneofs))

end FieldDraft

/-- The oneofs and the fields of a message. The fields are converted one after the other, and all
oneofs start without a mark. -/
def oneofsAndFields (locations : List Descriptor.Location) (path : List Int) (names : List Text)
    (findEntry : Text → Option Descriptor.Message) (raws : List Descriptor.Field) :
    Except Fault (List Oneof × List Field) := do
  let draft ← raws.zipIdx.foldlM (FieldDraft.convert locations path findEntry)
    { oneofs := names.map fun name => { name } }
  return (draft.oneofs, draft.settled)

mutual

def Message.ofDescriptor (locations : List Descriptor.Location) (scope : Text) (path : List Int) :
    Descriptor.Message → Except Fault Message
  | { name, fields, nested, enums, extensions, oneofs, .. } => do
    let fullName := scope ++ Text.dot :: name
    let (oneofs, fields) ← Fault.located (.message fullName)
      (oneofsAndFields locations path oneofs (findMapEntry fullName nested) fields)
    let messages ← nestedOf locations fullName path 0 nested
    let extensions ← Fault.located (.message fullName)
      (extensionsOf locations path ListNumber.nestedExtensions extensions)
    return {
      name
      fullName
      fields
      messages
      enums := enumsOf locations fullName path ListNumber.nestedEnums enums
      oneofs
      extensions
      comments := commentAt locations path }

/-- The messages nested in the one with the given full name and path, from the one at `index` on.
Map entries are left out but keep their index. -/
def nestedOf (locations : List Descriptor.Location) (fullName : Text) (path : List Int)
    (index : Nat) : List Descriptor.Message → Except Fault (List Message)
  | [] => return []
  | raw :: rest => do
    if raw.mapEntry then nestedOf locations fullName path (index + 1) rest
    else
      let message ← Message.ofDescriptor locations fullName
        (childPath path ListNumber.nestedMessages index) raw
      let more ← nestedOf locations fullName path (index + 1) rest
      return message :: more

end

def Service.ofDescriptor (locations : List Descriptor.Location) (scope : Text) (path : List Int)
    (raw : Descriptor.Service) : Service where
  name := raw.name
  fullName := scope ++ Text.dot :: raw.name
  methods := raw.methods.zipIdx.map fun (method, index) =>
    { name := method.name
      inputType := method.inputType
      outputType := method.outputType
      clientStreaming := method.clientStreaming
      serverStreaming := method.serverStreaming
      comments := commentAt locations (childPath path ListNumber.methods index) }
  comments := commentAt locations path

def packageScope (package : Text) : Text := if package = [] then [] else Text.dot :: package

def File.ofDescriptor (raw : Descriptor.File) : Except Fault File := do
  if raw.name = [] then throw .unnamedFile
  let scope := packageScope raw.package
  let messages ← Fault.located (.file raw.name) <|
    raw.messages.zipIdx.mapM fun (message, index) =>
      Message.ofDescriptor raw.locations scope (childPath [] ListNumber.fileMessages index) message
  let extensions ← Fault.located (.file raw.name) <|
    extensionsOf raw.locations [] ListNumber.fileExtensions raw.extensions
  return {
    path := raw.name
    package := raw.package
    syntaxName := if raw.syntaxName = [] then Text.ofString "proto2" else raw.syntaxName
    dependencies := raw.dependencies
    messages
    enums := enumsOf raw.locations scope [] ListNumber.fileEnums raw.enums
    services := raw.services.zipIdx.map fun (service, index) =>
      Service.ofDescriptor raw.locations scope (childPath [] ListNumber.fileServices index) service
    extensions }

end ProtoTypings.Schema
