import ProtoTypings.Layout.Message
import ProtoTypings.Proofs.Outline
import ProtoTypings.Proofs.Retarget

set_option autoImplicit false
set_option relaxedAutoImplicit false

/-!
The names of declarations and imports in generated text. Types and accessors are written a second
time with these names marked; without the marks they are the text of the layout.
-/

namespace ProtoTypings

/-- A piece of generated text: the name of a declaration, inside that of an import or not, or
anything else. -/
inductive Piece where
  | words (text : Text)
  | mention (name : Text)

def Piece.text : Piece → Text
  | .words text => text
  | .mention name => name

def Piece.mention? : Piece → Option Text
  | .words _ => none
  | .mention name => some name

abbrev MarkedText := List Piece

namespace MarkedText

def words (text : Text) : MarkedText := [.words text]

def mention (name : Text) : MarkedText := [.mention name]

def text (marked : MarkedText) : Text := marked.flatMap Piece.text

def mentions (marked : MarkedText) : List Text := marked.filterMap Piece.mention?

@[simp] theorem text_words (s : Text) : text (words s) = s := List.append_nil s

@[simp] theorem text_mention (name : Text) : text (mention name) = name := List.append_nil name

@[simp] theorem text_append (marked more : MarkedText) :
    text (marked ++ more) = text marked ++ text more := List.flatMap_append

@[simp] theorem mentions_words (s : Text) : mentions (words s) = [] := rfl

@[simp] theorem mentions_mention (name : Text) : mentions (mention name) = [name] := rfl

@[simp] theorem mentions_append (marked more : MarkedText) :
    mentions (marked ++ more) = mentions marked ++ mentions more := List.filterMap_append

end MarkedText

open MarkedText (words mention)

structure MarkedType where
  value : MarkedText
  object : MarkedText
  element : MarkedText

def MarkedType.text (type : MarkedType) : TypeText :=
  ⟨MarkedText.text type.value, MarkedText.text type.object, MarkedText.text type.element⟩

namespace ElementType

variable (spell : Resolution → Text)

def markedValue : ElementType → MarkedText
  | .number => words "number"
  | .string => words "string"
  | .boolean => words "boolean"
  | .bytes => words "Uint8Array | string"
  | .enum target => mention (spell target ++ "Map") ++ words "[keyof " ++
      mention (spell target ++ "Map") ++ words "]"
  | .message target => mention (spell target)

def markedObject : ElementType → MarkedText
  | .message target => mention (spell target ++ ".AsObject")
  | type => type.markedValue spell

private theorem text_markedValue (type : ElementType) :
    MarkedText.text (type.markedValue spell) = type.value spell := by
  cases type with
  | enum target =>
    have opening : Text.ofString "Map[keyof " =
      Text.ofString "Map" ++ Text.ofString "[keyof " := rfl
    have closing : Text.ofString "Map]" = Text.ofString "Map" ++ Text.ofString "]" := rfl
    simp [markedValue, value, opening, closing]
  | _ => simp [markedValue, value]

private theorem text_markedObject (type : ElementType) :
    MarkedText.text (type.markedObject spell) = type.object spell := by
  cases type with
  | message target => simp [markedObject, object]
  | number => exact text_markedValue spell .number
  | string => exact text_markedValue spell .string
  | boolean => exact text_markedValue spell .boolean
  | bytes => exact text_markedValue spell .bytes
  | enum target => exact text_markedValue spell (.enum target)

end ElementType

namespace FieldType

variable (spell : Resolution → Text)

def markedArrayOf (element : MarkedText) : MarkedText := words "Array<" ++ element ++ words ">"

def marked : FieldType → MarkedType
  | .single element => ⟨element.markedValue spell, element.markedObject spell, []⟩
  | .list element =>
    ⟨markedArrayOf (element.markedValue spell), markedArrayOf (element.markedObject spell),
      element.markedValue spell⟩
  | .map key value =>
    ⟨mention "jspb.Map" ++ words "<" ++ key.markedValue spell ++ words ", " ++
        value.markedValue spell ++ words ">",
      markedArrayOf (words "[" ++ key.markedValue spell ++ words ", " ++
        value.markedObject spell ++ words "]"), []⟩

theorem text_marked (type : FieldType) : (type.marked spell).text = type.spell spell := by
  have opening : Text.ofString "jspb.Map<" = Text.ofString "jspb.Map" ++ Text.ofString "<" := rfl
  cases type with
  | single element =>
    rw [marked, MarkedType.text, ElementType.text_markedValue, ElementType.text_markedObject]
    rfl
  | list element =>
    simp [marked, MarkedType.text, markedArrayOf, ElementType.text_markedValue,
      ElementType.text_markedObject, FieldType.spell, arrayOf]
  | map key value =>
    simp [marked, MarkedType.text, markedArrayOf, ElementType.text_markedValue,
      ElementType.text_markedObject, FieldType.spell, arrayOf, opening]
    rfl

end FieldType

namespace Layout

variable (owner : Text) (field : Declaration.Field MarkedType)

def markedMapAccessors : List MarkedText :=
  let name := field.accessorName
  [words ("get" ++ name ++ "(): ") ++ field.type.value ++ words ";",
    words ("clear" ++ name ++ "(): void;")]

def markedListAccessors : List MarkedText :=
  let name := field.accessorName
  let element := field.type.element
  let optional : Text := if field.isMessage then "?" else []
  [words ("clear" ++ name ++ "(): void;"),
    words ("get" ++ name ++ "(): ") ++ field.type.value ++ words ";"] ++
  (if field.isBytes then
    [words ("get" ++ name ++ "_asU8(): Array<Uint8Array>;"),
      words ("get" ++ name ++ "_asB64(): Array<string>;")]
  else []) ++
  [words ("set" ++ name ++ "(value: ") ++ field.type.value ++ words "): " ++ mention owner ++
      words ";",
    words ("add" ++ Text.trimEnd "List" name ++ "(value" ++ optional ++ ": ") ++ element ++
      words ", index?: number): " ++ element ++ words ";"]

def markedSingleAccessors : List MarkedText :=
  let name := field.accessorName
  let type := field.type.value
  (if field.hasPresence then
    [words ("has" ++ name ++ "(): boolean;"),
      words ("clear" ++ name ++ "(): void;")]
  else []) ++
  (if field.isMessage then
    [words ("get" ++ name ++ "(): ") ++ type ++ words " | undefined;",
      words ("set" ++ name ++ "(value?: ") ++ type ++ words "): " ++ mention owner ++ words ";"]
  else if field.isBytes then
    [words ("get" ++ name ++ "(): ") ++ type ++ words ";",
      words ("get" ++ name ++ "_asU8(): Uint8Array;"),
      words ("get" ++ name ++ "_asB64(): string;"),
      words ("set" ++ name ++ "(value: ") ++ type ++ words "): " ++ mention owner ++ words ";"]
  else
    [words ("get" ++ name ++ "(): ") ++ type ++ words ";",
      words ("set" ++ name ++ "(value: ") ++ type ++ words "): " ++ mention owner ++ words ";"])

def markedAccessors : List MarkedText :=
  if field.isMap then markedMapAccessors field
  else if field.isList then markedListAccessors owner field
  else markedSingleAccessors owner field

def markedObjectMember : MarkedText :=
  let optional : Text := if field.isOptional then "?" else []
  words ("    " ++ field.objectName ++ optional ++ ": ") ++ field.type.object ++ words ","

private theorem text_markedMapAccessors : (markedMapAccessors field).map MarkedText.text =
    mapAccessors (field.mapType MarkedType.text) := by
  simp [markedMapAccessors, mapAccessors, Declaration.Field.mapType, MarkedType.text]

private theorem text_markedListAccessors : (markedListAccessors owner field).map MarkedText.text =
    listAccessors owner (field.mapType MarkedType.text) := by
  simp only [markedListAccessors, listAccessors, Declaration.Field.mapType, MarkedType.text]
  by_cases bytes : field.isBytes = true <;> by_cases message : field.isMessage = true <;>
    simp [bytes, message]

private theorem text_markedSingleAccessors :
    (markedSingleAccessors owner field).map MarkedText.text =
    singleAccessors owner (field.mapType MarkedType.text) := by
  simp only [markedSingleAccessors, singleAccessors, Declaration.Field.mapType, MarkedType.text]
  by_cases presence : field.hasPresence = true <;> by_cases message : field.isMessage = true <;>
    by_cases bytes : field.isBytes = true <;> simp [presence, message, bytes]

theorem text_markedAccessors : (markedAccessors owner field).map MarkedText.text =
    accessors owner (field.mapType MarkedType.text) := by
  rw [markedAccessors, accessors]
  change _ = if field.isMap then _ else if field.isList then _ else _
  split
  · exact text_markedMapAccessors field
  · split
    · exact text_markedListAccessors owner field
    · exact text_markedSingleAccessors owner field

theorem text_markedObjectMember : MarkedText.text (markedObjectMember field) =
    objectMember (field.mapType MarkedType.text) := by
  simp only [markedObjectMember, objectMember, Declaration.Field.mapType, MarkedType.text]
  by_cases optional : field.isOptional = true <;> simp [optional]

private theorem mem_mentions_markedMapAccessors {name : Text} :
    name ∈ (markedMapAccessors field).flatMap MarkedText.mentions ↔
      name ∈ MarkedText.mentions field.type.value := by
  simp [markedMapAccessors]

private theorem mem_mentions_markedListAccessors {name : Text} :
    name ∈ (markedListAccessors owner field).flatMap MarkedText.mentions ↔
      name = owner ∨ name ∈ MarkedText.mentions field.type.value ∨
        name ∈ MarkedText.mentions field.type.element := by
  by_cases bytes : field.isBytes = true <;> simp [markedListAccessors, bytes] <;> tauto

private theorem mem_mentions_markedSingleAccessors {name : Text} :
    name ∈ (markedSingleAccessors owner field).flatMap MarkedText.mentions ↔
      name = owner ∨ name ∈ MarkedText.mentions field.type.value := by
  by_cases presence : field.hasPresence = true <;> by_cases message : field.isMessage = true <;>
    by_cases bytes : field.isBytes = true <;>
      simp [markedSingleAccessors, presence, message, bytes] <;> tauto

@[simp] theorem mentions_markedObjectMember :
    MarkedText.mentions (markedObjectMember field) = MarkedText.mentions field.type.object := by
  simp [markedObjectMember]

end Layout

/-- What a name is looked up by: all of it before the first dot. -/
def firstSegment (name : Text) : Text := name.takeWhile fun byte => byte ≠ Text.dot

private theorem firstSegment_cons (byte : UInt8) (rest : Text) :
    firstSegment (byte :: rest) = if byte = Text.dot then [] else byte :: firstSegment rest := by
  by_cases dot : byte = Text.dot <;> simp [firstSegment, dot]

theorem firstSegment_append_dot (front back : Text) :
    firstSegment (front ++ Text.dot :: back) = firstSegment front := by
  induction front with
  | nil => rfl
  | cons byte rest ih => rw [List.cons_append, firstSegment_cons, firstSegment_cons, ih]

theorem firstSegment_eq_self {name : Text} (undotted : Text.dot ∉ name) :
    firstSegment name = name := by
  induction name with
  | nil => rfl
  | cons byte rest ih =>
    have first : byte ≠ Text.dot := fun same => undotted (same ▸ List.mem_cons_self)
    have later : Text.dot ∉ rest := fun member => undotted (List.mem_cons_of_mem byte member)
    rw [firstSegment_cons, if_neg first, ih later]

/-- What the references in a type to a declaration are looked up by. -/
def ElementType.head? (spell : Resolution → Text) : ElementType → Option Text
  | .enum target => some (firstSegment (spell target ++ "Map"))
  | .message target => some (firstSegment (spell target))
  | .number | .string | .boolean | .bytes => none

def FieldType.head? (spell : Resolution → Text) : FieldType → Option Text
  | .single element | .list element => element.head? spell
  | .map _ value => value.head? spell

namespace ElementType

variable {spell : Resolution → Text} {P : Text → Prop}

private theorem forall_mentions_markedValue (type : ElementType) :
    (∀ name ∈ MarkedText.mentions (type.markedValue spell), P (firstSegment name)) ↔
      ∀ head ∈ type.head? spell, P head := by
  cases type <;> simp [markedValue, head?]

private theorem forall_mentions_markedObject (type : ElementType) :
    (∀ name ∈ MarkedText.mentions (type.markedObject spell), P (firstSegment name)) ↔
      ∀ head ∈ type.head? spell, P head := by
  cases type with
  | message target =>
    have object : Text.ofString ".AsObject" = Text.dot :: Text.ofString "AsObject" := rfl
    simp [markedObject, head?, object, firstSegment_append_dot]
  | number => exact forall_mentions_markedValue .number
  | string => exact forall_mentions_markedValue .string
  | boolean => exact forall_mentions_markedValue .boolean
  | bytes => exact forall_mentions_markedValue .bytes
  | enum target => exact forall_mentions_markedValue (.enum target)

private theorem mentions_of_reference?_eq_none {type : ElementType}
    (plain : type.reference? = none) : MarkedText.mentions (type.markedValue spell) = [] := by
  cases type <;> simp [reference?] at plain <;> rfl

end ElementType

namespace Declaration

private theorem Context.field_cases {context : Context} {field : Schema.Field}
    {made : Field FieldType} (outlined : context.field field = .ok made) :
    (field.kind ≠ .map ∧ made.isMap = false ∧ ∃ element,
      (made.isList = true ∧ made.type = .list element ∨
        made.isList = false ∧ made.type = .single element)) ∨
    (field.kind = .map ∧ made.isMap = true ∧ ∃ key value,
      made.type = .map key value ∧ key.reference? = none) := by
  have typed := Context.field_eq_ok outlined
  have flags : made.isMap = decide (field.kind = .map) ∧
      made.isList = (field.isRepeated && decide (field.kind ≠ .map)) := by
    rw [Context.field] at outlined
    split at outlined
    · simp at outlined
    · obtain rfl := Except.ok.inj outlined
      exact ⟨rfl, rfl⟩
  obtain ⟨isMap, isList⟩ := flags
  rcases FieldType.ofField_cases typed with ⟨notMap, element, -, type⟩ |
    ⟨map, _, _, key, value, -, -, -, -, type⟩
  · refine Or.inl ⟨notMap, by simp [isMap, notMap], element, ?_⟩
    by_cases repeated : field.isRepeated = true
    · rw [if_pos repeated] at type
      exact Or.inl ⟨by simp [isList, repeated, notMap], type⟩
    · rw [if_neg repeated] at type
      exact Or.inr ⟨by simp [isList, repeated], type⟩
  · refine Or.inr ⟨map, by simp [isMap, map], key, value, type, ?_⟩
    rw [type] at typed
    exact FieldType.reference?_key typed

section

variable {context : Context} {field : Schema.Field} {made : Field FieldType}

theorem forall_mentions_accessors (outlined : context.field field = .ok made)
    (spell : Resolution → Text) (owner : Text) (P : Text → Prop) :
    (∀ name ∈ (Layout.markedAccessors owner
        (made.mapType (FieldType.marked spell))).flatMap MarkedText.mentions,
      P (firstSegment name)) ↔
    P (if field.kind = .map then runtimeName else firstSegment owner) ∧
      ∀ head ∈ made.type.head? spell, P head := by
  rcases Context.field_cases outlined with
    ⟨notMap, notMapMade, element, shape⟩ | ⟨isMap, isMapMade, key, value, type, plain⟩
  · have head : made.type.head? spell = element.head? spell := by
      rcases shape with ⟨-, type⟩ | ⟨-, type⟩ <;> rw [type] <;> rfl
    have mentioned (name : Text) : name ∈ (Layout.markedAccessors owner
        (made.mapType (FieldType.marked spell))).flatMap MarkedText.mentions ↔
        name = owner ∨ name ∈ MarkedText.mentions (element.markedValue spell) := by
      rw [Layout.markedAccessors, if_neg (by simp [Field.mapType, notMapMade])]
      rcases shape with ⟨isList, type⟩ | ⟨notList, type⟩
      · rw [if_pos (by simp [Field.mapType, isList]), Layout.mem_mentions_markedListAccessors]
        simp [Field.mapType, type, FieldType.marked, FieldType.markedArrayOf]
      · rw [if_neg (by simp [Field.mapType, notList]), Layout.mem_mentions_markedSingleAccessors]
        simp [Field.mapType, type, FieldType.marked]
    simp only [mentioned, forall_eq_or_imp, if_neg notMap, head]
    exact and_congr_right' (ElementType.forall_mentions_markedValue element)
  · have mentioned (name : Text) : name ∈ (Layout.markedAccessors owner
        (made.mapType (FieldType.marked spell))).flatMap MarkedText.mentions ↔
        name = Text.ofString "jspb.Map" ∨
          name ∈ MarkedText.mentions (value.markedValue spell) := by
      rw [Layout.markedAccessors, if_pos (by simp [Field.mapType, isMapMade]),
        Layout.mem_mentions_markedMapAccessors]
      simp [Field.mapType, type, FieldType.marked, ElementType.mentions_of_reference?_eq_none plain]
    simp only [mentioned, forall_eq_or_imp, if_pos isMap, type]
    exact and_congr_right' (ElementType.forall_mentions_markedValue value)

theorem forall_mentions_objectMember (outlined : context.field field = .ok made)
    (spell : Resolution → Text) (P : Text → Prop) :
    (∀ name ∈ MarkedText.mentions (Layout.markedObjectMember
        (made.mapType (FieldType.marked spell))), P (firstSegment name)) ↔
      ∀ head ∈ made.type.head? spell, P head := by
  rw [Layout.mentions_markedObjectMember]
  change (∀ name ∈ MarkedText.mentions (made.type.marked spell).object, _) ↔ _
  rcases Context.field_cases outlined with
    ⟨-, -, element, ⟨-, type⟩ | ⟨-, type⟩⟩ | ⟨-, -, key, value, type, plain⟩
  · rw [type]
    simpa [FieldType.marked, FieldType.markedArrayOf, FieldType.head?] using
      ElementType.forall_mentions_markedObject element
  · rw [type]
    exact ElementType.forall_mentions_markedObject element
  · rw [type]
    simpa [FieldType.marked, FieldType.markedArrayOf, FieldType.head?,
      ElementType.mentions_of_reference?_eq_none plain] using
      ElementType.forall_mentions_markedObject value

end

end Declaration

end ProtoTypings
