import ProtoTypings.Proofs.FieldType
import ProtoTypings.Proofs.Outline

set_option autoImplicit false
set_option relaxedAutoImplicit false

/-!
The declarations of a schema file have the shape of the file: at every depth the same messages,
enums, values, fields and extensions stand in the same order. What a declared field says about
itself agrees with the field of the schema and with the type that it was given.
-/

namespace ProtoTypings.Declaration

/-- What is added to the name of a field that holds several values. -/
def Field.suffix {α : Type} (field : Field α) : Text :=
  if field.isMap then "Map" else if field.isList then "List" else []

structure Field.Follows (options : Options) (field : Schema.Field) (made : Field TypeText) :
    Prop where
  name : made.name = field.name
  number : made.number = field.number
  isOptional_iff : made.isOptional = true ↔ field.cardinality ≠ .required
  isMap_iff : made.isMap = true ↔ field.kind = .map
  isList_iff : made.isList = true ↔ field.cardinality = .repeated ∧ field.kind ≠ .map
  accessorName : made.accessorName =
    Identifier.upperFirst (Identifier.camelCase field.name) ++ made.suffix
  objectName : made.objectName =
    options.reserved.escape (Identifier.camelCase field.name ++ made.suffix)
  listType : made.isList = true → made.type.value = "Array<" ++ made.type.element ++ ">"
  otherType : made.isList = false → made.type.element = []

def Extension.Follows (extension : Schema.Field) (made : Extension TypeText) : Prop :=
  made.name = Identifier.camelCase extension.name

/-- A declared enum that agrees with an enum of the schema: its values, aliases among them, are in
place. -/
structure Enum.Follows (enum : Schema.Enum) (made : Enum) : Prop where
  name : made.name = enum.name
  values : List.Forall₂ (fun value madeValue =>
    madeValue.name = value.name ∧ madeValue.number = value.number) enum.values made.values

/-- A declared message that agrees with a message of the schema in everything inside it. -/
inductive Message.Follows (options : Options) : Schema.Message → Message TypeText → Prop where
  | intro {message : Schema.Message} {made : Message TypeText}
      (name : made.name = message.name)
      (fields : List.Forall₂ (Field.Follows options) message.fields made.fields)
      (messages : List.Forall₂ (Message.Follows options) message.messages made.messages)
      (enums : List.Forall₂ Enum.Follows message.enums made.enums)
      (extensions : List.Forall₂ Extension.Follows message.extensions made.extensions) :
      Follows options message made

structure Outline.Follows (options : Options) (file : Schema.File) (made : Outline TypeText) :
    Prop where
  messages : List.Forall₂ (Message.Follows options) file.messages made.messages
  enums : List.Forall₂ Enum.Follows file.enums made.enums
  extensions : List.Forall₂ Extension.Follows file.extensions made.extensions

end ProtoTypings.Declaration

namespace ProtoTypings.FieldType

variable {table : SymbolTable} {source : Text} {field : Schema.Field} {type : FieldType}
  (spelling : Resolution → Text)

private theorem value_spell_of_list (typed : ofField table source field = .ok type)
    (repeated : field.cardinality = .repeated) (notMap : field.kind ≠ .map) :
    (type.spell spelling).value = "Array<" ++ (type.spell spelling).element ++ ">" := by
  rcases ofField_cases typed with ⟨-, element, -, rfl⟩ | ⟨isMap, -⟩
  · have isRepeated : field.isRepeated = true := decide_eq_true repeated
    rw [if_pos isRepeated]
    rfl
  · exact absurd isMap notMap

private theorem element_spell_of_other (typed : ofField table source field = .ok type)
    (other : ¬(field.cardinality = .repeated ∧ field.kind ≠ .map)) :
    (type.spell spelling).element = [] := by
  rcases ofField_cases typed with ⟨notMap, element, -, rfl⟩ | ⟨-, _, _, _, _, -, -, -, -, rfl⟩
  · have single : ¬field.isRepeated = true := fun repeated =>
      other ⟨of_decide_eq_true repeated, notMap⟩
    rw [if_neg single]
    rfl
  · rfl

end ProtoTypings.FieldType

namespace ProtoTypings.Declaration

namespace Context

variable {context : Context}

private theorem suffix_of_field {field : Schema.Field} {made : Field FieldType}
    (outlined : context.field field = .ok made) : made.suffix = nameSuffix field := by
  rw [Context.field] at outlined
  split at outlined
  · cases outlined
  · obtain rfl := Except.ok.inj outlined
    rw [Field.suffix, nameSuffix, typedField]
    by_cases isMap : field.kind = .map
    · simp only [isMap, decide_true, if_true]
    · simp only [isMap, decide_false, Bool.false_eq_true, if_false, ne_eq, not_false_eq_true,
        decide_true, Bool.and_true]

section

variable (spelling : Resolution → Text)

private theorem field_follows {field : Schema.Field} {made : Field FieldType}
    (outlined : context.field field = .ok made) :
    (made.mapType (FieldType.spell spelling)).Follows context.options field := by
  have suffix : (made.mapType (FieldType.spell spelling)).suffix = nameSuffix field :=
    suffix_of_field outlined
  rw [Context.field] at outlined
  split at outlined
  · cases outlined
  · rename_i type typed
    obtain rfl := Except.ok.inj outlined
    have isList_iff : (field.isRepeated && field.kind ≠ .map : Bool) = true ↔
        field.cardinality = .repeated ∧ field.kind ≠ .map := by
      rw [Bool.and_eq_true, Schema.Field.isRepeated, decide_eq_true_eq, decide_eq_true_eq]
    refine ⟨rfl, rfl, decide_eq_true_iff, decide_eq_true_iff, isList_iff, ?_, ?_, ?_, ?_⟩
    · rw [suffix]
      rfl
    · rw [suffix]
      rfl
    · intro isList
      obtain ⟨repeated, notMap⟩ := isList_iff.mp isList
      exact FieldType.value_spell_of_list spelling typed repeated notMap
    · intro noList
      refine FieldType.element_spell_of_other spelling typed fun list => ?_
      exact Bool.false_ne_true (noList.symm.trans (isList_iff.mpr list))

private theorem extension_follows {extension : Schema.Field} {made : Extension FieldType}
    (outlined : context.extension extension = .ok made) :
    (made.mapType (FieldType.spell spelling)).Follows extension := by
  rw [Context.extension] at outlined
  split at outlined
  · cases outlined
  · obtain rfl := Except.ok.inj outlined
    rfl

end

private theorem enum_follows (scope : Text) (enum : Schema.Enum) :
    (context.enum scope enum).Follows enum := by
  refine ⟨rfl, Result.forall₂_map_self ?_⟩
  intro value _
  exact ⟨rfl, rfl⟩

private theorem enums_follow (scope : Text) (enums : List Schema.Enum) :
    List.Forall₂ Enum.Follows enums (enums.map (context.enum scope)) := by
  refine Result.forall₂_map_self ?_
  intro enum _
  exact enum_follows scope enum

section

variable (spelling : Resolution → Text)

private theorem fields_follow {fields : List Schema.Field} {made : List (Field FieldType)}
    (outlined : List.Forall₂ (fun field made => context.field field = .ok made) fields made) :
    List.Forall₂ (Field.Follows context.options) fields
      (made.map (Field.mapType (FieldType.spell spelling))) :=
  List.forall₂_map_right_iff.mpr (outlined.imp fun _ _ => field_follows spelling)

private theorem extensions_follow {extensions : List Schema.Field}
    {made : List (Extension FieldType)}
    (outlined : List.Forall₂ (fun field made => context.extension field = .ok made)
      extensions made) :
    List.Forall₂ Extension.Follows extensions
      (made.map (Extension.mapType (FieldType.spell spelling))) :=
  List.forall₂_map_right_iff.mpr (outlined.imp fun _ _ => extension_follows spelling)

mutual

private theorem message_follows :
    ∀ (scope : Text) (message : Schema.Message) (made : Message FieldType),
    context.message scope message = .ok made →
      (made.mapType (FieldType.spell spelling)).Follows context.options message
  | scope, { name, fullName, fields, messages, enums, oneofs, extensions, comments }, made,
      outlined => by
    have outlines := message_eq_ok outlined
    refine .intro ?_ ?_ ?_ ?_ ?_
    · rw [Message.name_mapType]
      exact name_of_message outlined
    · rw [Message.fields_mapType]
      exact fields_follow spelling outlines.fields
    · rw [Message.messages_mapType]
      exact messages_follow made.declaredName messages made.messages outlines.messages
    · rw [Message.enums_mapType, outlines.enums]
      exact enums_follow made.declaredName enums
    · rw [Message.extensions_mapType]
      exact extensions_follow spelling outlines.extensions

private theorem messages_follow (scope : Text) : ∀ (messages : List Schema.Message)
    (made : List (Message FieldType)),
      List.Forall₂ (fun message made => context.message scope message = .ok made) messages made →
      List.Forall₂ (Message.Follows context.options) messages
        (made.map (Message.mapType (FieldType.spell spelling)))
  | [], [], .nil => .nil
  | message :: rest, first :: more, .cons outlined restOutlined =>
    .cons (message_follows scope message first outlined)
      (messages_follow scope rest more restOutlined)

end

end

end Context

/-- Declarations follow the schema: they hold what the schema file holds, level by level, in the
same number and order, and every declared field agrees with its field. -/
theorem declarations_follow {file : Schema.File} {table : SymbolTable} {options : Options}
    {emitted : MessageFile} (made : MessageFile.ofSchema file table options = .ok emitted) :
    emitted.toOutline.Follows options file := by
  obtain ⟨outline, outlined, rfl⟩ := MessageFile.ofSchema_eq_ok made
  refine ⟨?_, ?_, Context.extensions_follow _ outlined.extensions⟩
  · change List.Forall₂ _ file.messages (Message.mapTypes _ outline.messages)
    rw [Message.mapTypes_eq_map]
    exact Context.messages_follow _ [] file.messages outline.messages outlined.messages
  · change List.Forall₂ _ file.enums outline.enums
    rw [outlined.enums]
    exact Context.enums_follow [] file.enums

/-- A schema file with a list, a map, a required field whose name is a reserved word, a message
nested in a message, an enum with an alias, and an extension. -/
def gardenFile : Schema.File where
  path := "garden.proto"
  messages := [{
    name := "Bed"
    fullName := ".Bed"
    fields := [
      { name := "plant_names", number := 3, kind := .scalar .string, cardinality := .repeated },
      { name := "notes", number := 1, kind := .map, cardinality := .repeated,
        map := some ⟨some { kind := .scalar .int32 }, some { kind := .scalar .string }⟩ },
      { name := "class", number := 2, kind := .enum, cardinality := .required,
        typeName := ".Soil" }]
    messages := [{ name := "Row", fullName := ".Bed.Row", fields := [
      { name := "seeds", number := 1, kind := .scalar .uint64 }] }] }]
  enums := [{
    name := "Soil"
    fullName := ".Soil"
    values := [{ name := "CLAY", number := 1 }, { name := "LOAM", number := 2 },
      { name := "MUD", number := 1 }] }]
  extensions := [{ name := "water_level", number := 100, kind := .scalar .double }]

theorem declarations_follow_gardenFile :
    ∃ emitted bed, MessageFile.ofSchema gardenFile ⟨Symbol.ofFile gardenFile, .fromRoot⟩ {} =
        .ok emitted ∧ emitted.messages = [bed] ∧
      bed.fields.map (·.accessorName) =
        (["PlantNamesList", "NotesMap", "Class"] : List String).map Text.ofString ∧
      bed.fields.map (·.objectName) =
        (["plantNamesList", "notesMap", "pb_class"] : List String).map Text.ofString ∧
      emitted.toOutline.Follows {} gardenFile := by
  refine ⟨_, _, rfl, rfl, rfl, rfl, ?_⟩
  exact @declarations_follow gardenFile ⟨Symbol.ofFile gardenFile, .fromRoot⟩ {} _ rfl

end ProtoTypings.Declaration
