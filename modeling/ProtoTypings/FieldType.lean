import ProtoTypings.Import

set_option autoImplicit false
set_option relaxedAutoImplicit false

/-!
The types of fields in the declarations. A type is determined from the schema, with references
resolved and recorded, and is then spelled with the imports of the file it stands in.
-/

namespace ProtoTypings

inductive ElementType where
  | number
  | string
  | boolean
  | bytes
  | enum (target : Resolution)
  | message (target : Resolution)
  deriving DecidableEq, Repr

inductive FieldType where
  | single (element : ElementType)
  | list (element : ElementType)
  | map (key value : ElementType)
  deriving DecidableEq, Repr

structure TypeText where
  /-- The type in accessors. -/
  value : Text := []
  /-- The type in plain objects. -/
  object : Text := []
  /-- The type of one element of a list; empty for all other fields. -/
  element : Text := []
  deriving DecidableEq, Repr

namespace ElementType

def reference? : ElementType → Option Resolution
  | .enum target | .message target => some target
  | .number | .string | .boolean | .bytes => none

/-- The spelling in accessors. -/
def value (spell : Resolution → Text) : ElementType → Text
  | .number => "number"
  | .string => "string"
  | .boolean => "boolean"
  | .bytes => "Uint8Array | string"
  | .enum target => spell target ++ "Map[keyof " ++ spell target ++ "Map]"
  | .message target => spell target

/-- The spelling in plain objects, which differs for messages. -/
def object (spell : Resolution → Text) : ElementType → Text
  | .message target => spell target ++ ".AsObject"
  | type => type.value spell

def is64Bit : Schema.Scalar → Bool
  | .int64 | .uint64 | .sint64 | .fixed64 | .sfixed64 => true
  | _ => false

/-- The type of a scalar. A 64-bit integer may be asked for as a string. -/
def ofScalar (scalar : Schema.Scalar) (jsType : Schema.JsType) : ElementType :=
  match scalar with
  | .bool => .boolean
  | .string => .string
  | .bytes => .bytes
  | scalar => if is64Bit scalar && decide (jsType = .string) then .string else .number

/-- The type of a single value of a field. Failures name the field that owns it. -/
def ofField (table : SymbolTable) (source owner : Text) (field : Schema.Field) :
    Except Fault ElementType :=
  match field.kind with
  | .scalar scalar => .ok (ofScalar scalar field.jsType)
  | .enum =>
    match table.resolve field.typeName source with
    | .error fault => .error (.within (.field owner) fault)
    | .ok target =>
      if target.kind = .enum then .ok (.enum target)
      else .error (.unsupported owner field.kind (.notEnum field.typeName))
  | .message | .group =>
    match table.resolve field.typeName source with
    | .error fault => .error (.within (.field owner) fault)
    | .ok target =>
      if target.kind = .message then .ok (.message target)
      else .error (.unsupported owner field.kind (.notMessage field.typeName))
  | .invalid | .map | .unknown _ => .error (.unsupported owner field.kind .kind)

end ElementType

namespace FieldType

/-- Whether a kind may be the key of a map: the integers, booleans and strings. -/
def isKeyKind : Schema.FieldKind → Bool
  | .scalar .double | .scalar .float | .scalar .bytes => false
  | .scalar _ => true
  | _ => false

def arrayOf (element : Text) : Text := "Array<" ++ element ++ ">"

def spell (spell : Resolution → Text) : FieldType → TypeText
  | .single element => ⟨element.value spell, element.object spell, []⟩
  | .list element =>
    ⟨arrayOf (element.value spell), arrayOf (element.object spell), element.value spell⟩
  | .map key value =>
    ⟨"jspb.Map<" ++ key.value spell ++ ", " ++ value.value spell ++ ">",
      arrayOf ("[" ++ key.value spell ++ ", " ++ value.object spell ++ "]"), []⟩

end FieldType

def SymbolTable.resolveMessage (table : SymbolTable) (name source : Text) :
    Except Fault Resolution :=
  match table.resolve name source with
  | .error fault => .error fault
  | .ok target =>
    if target.kind = .message then .ok target
    else .error (.unsupported name .enum .notCallable)

namespace Imports

def recordElement (imports : Imports) (table : SymbolTable) (source owner : Text)
    (field : Schema.Field) : Except Fault ElementType × Imports :=
  match ElementType.ofField table source owner field with
  | .error fault => (.error fault, imports)
  | .ok element => (.ok element, imports.addAll element.reference?.toList)

/-- Determines the type of a map. The key is recorded like the value, before it and with the same
imports. -/
def recordMap (imports : Imports) (table : SymbolTable) (source : Text) (field : Schema.Field) :
    Except Fault FieldType × Imports :=
  match field.map with
  | some ⟨some key, some value⟩ =>
    if !FieldType.isKeyKind key.kind then
      (.error (.unsupported field.name key.kind .mapKey), imports)
    else if value.kind = .map then
      (.error (.unsupported field.name value.kind .mapOfMaps), imports)
    else
      match imports.recordElement table source field.name key with
      | (.error fault, imports) => (.error fault, imports)
      | (.ok keyType, imports) =>
        match imports.recordElement table source field.name value with
        | (.error fault, imports) => (.error fault, imports)
        | (.ok valueType, imports) => (.ok (.map keyType valueType), imports)
  | _ => (.error (.unsupported field.name field.kind .incompleteMap), imports)

/-- Determines the type of a field and records its references. -/
def recordField (imports : Imports) (table : SymbolTable) (source : Text) (field : Schema.Field) :
    Except Fault FieldType × Imports :=
  if field.kind = .map then imports.recordMap table source field
  else match imports.recordElement table source field.name field with
    | (.error fault, imports) => (.error fault, imports)
    | (.ok element, imports) =>
      (.ok (if field.isRepeated then .list element else .single element), imports)

/-- Determines and spells the type of a field, and records its references. -/
def mapField (imports : Imports) (table : SymbolTable) (source : Text) (field : Schema.Field) :
    Except Fault TypeText × Imports :=
  match imports.recordField table source field with
  | (.error fault, imports) => (.error fault, imports)
  | (.ok type, imports) => (.ok (type.spell imports.spell), imports)

/-- Spells the message that a method takes or returns, and records the reference. -/
def mapMessage (imports : Imports) (table : SymbolTable) (source name : Text) :
    Except Fault Text × Imports :=
  match table.resolveMessage name source with
  | .error fault => (.error fault, imports)
  | .ok target => let (text, imports) := imports.reference target; (.ok text, imports)

end Imports

/-- Formatting with the imports of a file at hand: each reference is recorded and spelled when it is
met. -/
abbrev Formatter (α : Type) := StateT Imports (Except Fault) α

namespace Formatter

variable {α : Type}

def recording (record : Imports → Except Fault α × Imports) : Formatter α := fun imports =>
  match record imports with
  | (.error fault, _) => .error fault
  | (.ok a, imports) => .ok (a, imports)

def located (place : Place) (format : Formatter α) : Formatter α := fun imports =>
  Fault.located place (format imports)

end Formatter

end ProtoTypings
