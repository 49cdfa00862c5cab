import ProtoTypings.Layout.Service
import ProtoTypings.Proofs.DocComment
import ProtoTypings.Proofs.Header

set_option autoImplicit false
set_option relaxedAutoImplicit false

/-!
The headers among the lines of a generated file are its messages and enums, each at its depth, in the
order of the walk: a message, the messages inside it, the enums inside it. No name, type, comment or
path adds one.
-/

namespace ProtoTypings

namespace Declaration

def Field.texts (field : Field TypeText) : List Text :=
  [field.name, field.accessorName, field.objectName, field.type.value, field.type.object,
    field.type.element] ++ field.comment

def Extension.texts (extension : Extension TypeText) : List Text :=
  [extension.name, extension.type.value, extension.type.object, extension.type.element] ++
    extension.comment

def EnumValue.texts (value : EnumValue) : List Text := value.name :: value.comment

def Enum.texts (enum : Enum) : List Text :=
  [enum.name, enum.declaredName] ++ enum.values.flatMap EnumValue.texts ++ enum.comment

mutual

def Message.texts : Message TypeText → List Text
  | { name, declaredName, fields, messages, enums, extensions, comment } =>
    [name, declaredName] ++ fields.flatMap Field.texts ++ Message.textsOfAll messages ++
      enums.flatMap Enum.texts ++ extensions.flatMap Extension.texts ++ comment

def Message.textsOfAll : List (Message TypeText) → List Text
  | [] => []
  | message :: rest => message.texts ++ Message.textsOfAll rest

end

def MessageFile.texts (file : MessageFile) : List Text :=
  [file.protoFile, file.package] ++ file.imports.flatMap (fun entry => [entry.name, entry.path]) ++
    Message.textsOfAll file.messages ++ file.enums.flatMap Enum.texts ++
    file.extensions.flatMap Extension.texts

open Layout (Header)

def Enum.header (depth : Nat) (enum : Enum) : Header := ⟨2 * depth, .enum, enum.name⟩

mutual

def Message.headers (depth : Nat) : Message TypeText → List Header
  | { name, messages, enums, .. } =>
    ⟨2 * depth, .message, name⟩ ::
      (Message.headersOfAll (depth + 1) messages ++ enums.map (Enum.header (depth + 1)))

def Message.headersOfAll (depth : Nat) : List (Message TypeText) → List Header
  | [] => []
  | message :: rest => message.headers depth ++ Message.headersOfAll depth rest

end

/-- The headers of everything in a file: those of the messages, then those of the enums. -/
def MessageFile.headers (file : MessageFile) : List Header :=
  Message.headersOfAll 0 file.messages ++ file.enums.map (Enum.header 0)

private theorem Enum.header_succ (depth : Nat) (enum : Enum) :
    enum.header (depth + 1) = (enum.header depth).moved 2 := by
  simp only [header, Header.moved, Header.mk.injEq, and_true]
  omega

mutual

theorem Message.headers_succ (depth : Nat) : ∀ message : Message TypeText,
    message.headers (depth + 1) = (message.headers depth).map (Header.moved 2)
  | { name, declaredName, fields, messages, enums, extensions, comment } => by
    rw [headers, headers, List.map_cons, List.map_append, List.map_map,
      Message.headersOfAll_succ (depth + 1) messages]
    refine congrArg₂ List.cons ?_ (congrArg₂ _ rfl (List.map_congr_left fun enum _ => ?_))
    · simp only [Header.moved, Header.mk.injEq, and_true]
      omega
    · exact enum.header_succ (depth + 1)

private theorem Message.headersOfAll_succ (depth : Nat) : ∀ messages : List (Message TypeText),
    Message.headersOfAll (depth + 1) messages =
      (Message.headersOfAll depth messages).map (Header.moved 2)
  | [] => rfl
  | message :: rest => by
    rw [headersOfAll, headersOfAll, List.map_append, Message.headers_succ depth message,
      Message.headersOfAll_succ depth rest]

end

end Declaration

namespace Layout

open Declaration (Extension Enum EnumValue Message MessageFile)

section

variable {owner : Text} {field : Declaration.Field TypeText} (named : field.accessorName.OneLine)
  (typed : field.type.value.OneLine)
include named typed

private theorem statement_mapAccessors : ∀ a ∈ mapAccessors field, Statement a := by
  simp only [mapAccessors, List.forall_mem_cons]
  refine ⟨statement_append ?_ (by decide), statement_append ?_ (by decide), by simp⟩
  · simp +decide [named, typed]
  · simp +decide [named]

variable (owned : owner.OneLine)
include owned

private theorem statement_singleAccessors : ∀ a ∈ singleAccessors owner field, Statement a := by
  simp only [singleAccessors, List.forall_mem_append]
  constructor
  · split
    · simp only [List.forall_mem_cons]
      refine ⟨statement_append ?_ (by decide), statement_append ?_ (by decide), by simp⟩ <;>
        simp +decide [named]
    · simp
  · split
    · simp only [List.forall_mem_cons]
      refine ⟨statement_append ?_ (by decide), statement_append ?_ (by decide), by simp⟩ <;>
        simp +decide [named, typed, owned]
    · split
      · simp only [List.forall_mem_cons]
        refine ⟨statement_append ?_ (by decide), statement_append ?_ (by decide),
          statement_append ?_ (by decide), statement_append ?_ (by decide), by simp⟩ <;>
          simp +decide [named, typed, owned]
      · simp only [List.forall_mem_cons]
        refine ⟨statement_append ?_ (by decide), statement_append ?_ (by decide), by simp⟩ <;>
          simp +decide [named, typed, owned]

variable (spelled : field.type.element.OneLine)
include spelled

private theorem statement_listAccessors : ∀ a ∈ listAccessors owner field, Statement a := by
  have single : Text.OneLine (Text.trimEnd "List" field.accessorName) :=
    named.of_subset (Text.trimEnd_subset _ _)
  have optional : Text.OneLine (if field.isMessage then Text.ofString "?" else []) := by
    split <;> decide
  simp only [listAccessors, List.forall_mem_append]
  refine ⟨⟨?_, ?_⟩, ?_⟩
  · simp only [List.forall_mem_cons]
    refine ⟨statement_append ?_ (by decide), statement_append ?_ (by decide), by simp⟩ <;>
      simp +decide [named, typed]
  · split
    · simp only [List.forall_mem_cons]
      refine ⟨statement_append ?_ (by decide), statement_append ?_ (by decide), by simp⟩ <;>
        simp +decide [named]
    · simp
  · simp only [List.forall_mem_cons]
    refine ⟨statement_append ?_ (by decide), statement_append ?_ (by decide), by simp⟩
    · simp +decide [named, typed, owned]
    · simp +decide [single, optional, spelled]

end

private theorem statement_accessors {owner : Text} {field : Declaration.Field TypeText}
    (owned : owner.OneLine) (oneLine : ∀ text ∈ field.texts, text.OneLine) :
    ∀ a ∈ accessors owner field, Statement a := by
  simp only [Declaration.Field.texts, List.forall_mem_append, List.forall_mem_cons] at oneLine
  obtain ⟨⟨-, named, -, typed, -, spelled, -⟩, -⟩ := oneLine
  rw [accessors]
  split
  · exact statement_mapAccessors named typed
  · split
    · exact statement_listAccessors named typed owned spelled
    · exact statement_singleAccessors named typed owned

private theorem comprises_docBlock {lines : List Text} (oneLine : ∀ line ∈ lines, line.OneLine) :
    Comprises (docBlock lines) [] := by
  by_cases nonempty : lines = []
  · rw [nonempty]
    exact comprises_nil
  · rw [docBlock_eq nonempty]
    refine comprises_plain fun line member => ?_
    rw [List.mem_cons, List.mem_append, List.mem_map, List.mem_singleton] at member
    rcases member with rfl | ⟨inner, listed, rfl⟩ | rfl
    · exact ⟨by decide, by decide +kernel⟩
    · refine ⟨oneLine_starred (oneLine inner listed), ?_⟩
      rw [starred]
      split <;> rfl
    · exact ⟨by decide, by decide +kernel⟩

private theorem comprises_classMember {owner : Text} {field : Declaration.Field TypeText}
    (owned : owner.OneLine) (oneLine : ∀ text ∈ field.texts, text.OneLine) :
    Comprises (classMember owner field) [] := by
  have comment : ∀ line ∈ field.comment, line.OneLine := by
    simp only [Declaration.Field.texts, List.forall_mem_append] at oneLine
    exact oneLine.2
  refine ((comprises_docBlock comment).indent 2).append (comprises_plain fun line member => ?_)
  obtain ⟨a, listed, rfl⟩ := List.mem_map.mp member
  exact (statement_append (by decide) (statement_accessors owned oneLine a listed)).plain

private theorem plain_objectMember {field : Declaration.Field TypeText}
    (oneLine : ∀ text ∈ field.texts, text.OneLine) : Plain (objectMember field) := by
  simp only [Declaration.Field.texts, List.forall_mem_append, List.forall_mem_cons] at oneLine
  obtain ⟨⟨-, -, named, -, typed, -, -⟩, -⟩ := oneLine
  have optional : Text.OneLine (if field.isOptional then Text.ofString "?" else []) := by
    split <;> decide
  rw [objectMember]
  refine plain_of_getLast? ?_ (Text.getLast?_append_of_some rfl) (by decide)
  simp +decide [named, typed, optional]

private theorem statement_commonMembers {name : Text} (oneLine : name.OneLine) :
    ∀ line ∈ commonMembers name, Statement line := by
  simp only [commonMembers, List.forall_mem_cons]
  refine ⟨by decide, statement_append ?_ (by decide), statement_append ?_ (by decide), by decide,
    statement_append (by decide) (by decide), statement_append ?_ (by decide),
    statement_append ?_ (by decide), statement_append ?_ (by decide), by simp⟩ <;>
    simp +decide [oneLine]

private theorem comprises_enumValue {value : EnumValue}
    (oneLine : ∀ text ∈ value.texts, text.OneLine) : Comprises (enumValue value) [] := by
  simp only [EnumValue.texts, List.forall_mem_cons] at oneLine
  have statement : Statement ("  " ++ value.name ++ ": " ++ Text.ofInt value.number ++ ";") :=
    statement_append (by simp +decide [oneLine.1]) (by decide)
  exact ((comprises_docBlock oneLine.2).indent 2).append (comprises_line statement.plain)

private theorem comprises_enum {enum : Enum} (oneLine : ∀ text ∈ enum.texts, text.OneLine) :
    Comprises (Layout.enum enum) [enum.header 0] := by
  simp only [Enum.texts, List.forall_mem_append, List.forall_mem_cons, List.forall_mem_flatMap]
    at oneLine
  obtain ⟨⟨⟨named, -⟩, values⟩, comment⟩ := oneLine
  have header : Comprises (block [enumHeader enum.name]) [enum.header 0] :=
    comprises_header (enum.header 0) named
  have members : Comprises (enum.values.flatMap enumValue) [] :=
    comprises_flatMap_nil fun value listed => comprises_enumValue (values value listed)
  have ending : Comprises (block ["\x7d", [], "export const " ++ enum.name ++ ": " ++ enum.name ++
      "Map;"]) [] := by
    refine comprises_plain ?_
    simp only [List.forall_mem_cons]
    refine ⟨⟨by decide, by decide +kernel⟩, ⟨by decide, rfl⟩, ?_, by simp⟩
    exact (statement_append (by simp +decide [named]) (by decide)).plain
  exact (((comprises_docBlock comment).append header).append members).append ending

private theorem comprises_extension {extension : Extension TypeText}
    (oneLine : ∀ text ∈ extension.texts, text.OneLine) :
    Comprises (Layout.extension extension) [] := by
  simp only [Extension.texts, List.forall_mem_append, List.forall_mem_cons] at oneLine
  obtain ⟨⟨named, typed, -⟩, comment⟩ := oneLine
  have statement : Statement ("export const " ++ extension.name ++ ": jspb.ExtensionFieldInfo<" ++
      extension.type.value ++ ">;") :=
    statement_append (by simp +decide [named, typed]) (by decide)
  exact (comprises_docBlock comment).append (comprises_line statement.plain)

section

variable {enums : List Enum} (enumTexts : ∀ enum ∈ enums, ∀ text ∈ enum.texts, text.OneLine)
  {extensions : List (Extension TypeText)}
  (extensionTexts : ∀ extension ∈ extensions, ∀ text ∈ extension.texts, text.OneLine)

include enumTexts in
private theorem comprises_enums :
    Comprises (block (enums.map Layout.enum)) (enums.map (Enum.header 0)) :=
  comprises_blocks fun enum listed => comprises_enum (enumTexts enum listed)

include enumTexts in
private theorem comprises_nestedEnums :
    Comprises (block (enums.map fun e => indent 2 (Layout.enum e))) (enums.map (Enum.header 1)) := by
  refine comprises_blocks fun enum listed => ?_
  have nested := (comprises_enum (enumTexts enum listed)).indent 2
  rwa [List.map_singleton, ← enum.header_succ] at nested

include extensionTexts in
private theorem comprises_extensions : Comprises (block (extensions.map Layout.extension)) [] :=
  comprises_blocks_nil fun extension listed => comprises_extension (extensionTexts extension listed)

include extensionTexts in
private theorem comprises_nestedExtensions :
    Comprises (block (extensions.map fun e => indent 2 (Layout.extension e))) [] :=
  comprises_blocks_nil fun extension listed =>
    (comprises_extension (extensionTexts extension listed)).indent 2

end

private theorem comprises_joint {name : Text} (named : name.OneLine) :
    Comprises (block ["\x7d", [], "export namespace " ++ name ++ " \x7b",
      "  export type AsObject = \x7b"]) [] := by
  refine comprises_plain ?_
  simp only [List.forall_mem_cons]
  refine ⟨⟨by decide, by decide +kernel⟩, ⟨by decide, rfl⟩, ⟨?_, rfl⟩,
    ⟨by decide, by decide +kernel⟩, by simp⟩
  simp +decide [named]

mutual

private theorem comprises_message : ∀ m : Message TypeText, (∀ text ∈ m.texts, text.OneLine) →
    Comprises (message m) (m.headers 0)
  | { name, declaredName, fields, messages, enums, extensions, comment }, oneLine => by
    simp only [Message.texts, List.forall_mem_append, List.forall_mem_cons, List.forall_mem_flatMap]
      at oneLine
    obtain ⟨⟨⟨⟨⟨⟨named, owned, -⟩, fieldTexts⟩, nestedTexts⟩, enumTexts⟩, extensionTexts⟩,
      commented⟩ := oneLine
    have header : Comprises (block [classHeader name]) [⟨0, .message, name⟩] :=
      comprises_header ⟨0, .message, name⟩ named
    have classMembers : Comprises (fields.flatMap (classMember declaredName)) [] :=
      comprises_flatMap_nil fun field listed => comprises_classMember owned (fieldTexts field listed)
    have commonMembers : Comprises (block (commonMembers declaredName)) [] :=
      comprises_plain fun line member => (statement_commonMembers owned line member).plain
    have objectMembers : Comprises (block (fields.map objectMember)) [] := by
      refine comprises_plain fun line member => ?_
      obtain ⟨field, listed, rfl⟩ := List.mem_map.mp member
      exact plain_objectMember (fieldTexts field listed)
    have objectEnd : Comprises (block ["  \x7d"]) [] :=
      comprises_line (plain_of_getLast? (by decide) rfl (by decide))
    have namespaceEnd : Comprises (block ["\x7d"]) [] :=
      comprises_line (plain_of_getLast? (by decide) rfl (by decide))
    have whole := (((((((((comprises_docBlock commented).append header).append classMembers).append
      commonMembers).append (comprises_joint named)).append objectMembers).append
      objectEnd).append (comprises_nestedMessages messages nestedTexts)).append
      (comprises_nestedEnums enumTexts)).append (comprises_nestedExtensions extensionTexts)
    rw [message, Message.headers]
    exact (whole.append namespaceEnd).congr (by simp)

private theorem comprises_nestedMessages : ∀ messages : List (Message TypeText),
    (∀ text ∈ Message.textsOfAll messages, text.OneLine) →
    Comprises (nestedMessages messages) (Message.headersOfAll 1 messages)
  | [], _ => comprises_nil
  | m :: rest, oneLine => by
    rw [Message.textsOfAll, List.forall_mem_append] at oneLine
    have first := ((comprises_message m oneLine.1).indent 2).below
    rw [← Message.headers_succ] at first
    rw [nestedMessages, Message.headersOfAll]
    exact first.append (comprises_nestedMessages rest oneLine.2)

end

private theorem comprises_messages : ∀ messages : List (Message TypeText),
    (∀ text ∈ Message.textsOfAll messages, text.OneLine) →
    Comprises (block (messages.map message)) (Message.headersOfAll 0 messages)
  | [], _ => comprises_nil
  | m :: rest, oneLine => by
    rw [Message.textsOfAll, List.forall_mem_append] at oneLine
    have first := (comprises_message m oneLine.1).below
    rw [Message.headersOfAll]
    have both := first.append (comprises_messages rest oneLine.2)
    rwa [← block_append] at both

private theorem comprises_importLines {imports : List Import}
    (oneLine : ∀ entry ∈ imports, ∀ text ∈ [entry.name, entry.path], text.OneLine) :
    Comprises (block (importLines imports)) [] := by
  refine comprises_plain fun line member => ?_
  obtain ⟨entry, listed, rfl⟩ := List.mem_map.mp member
  have named : entry.name.OneLine := oneLine entry listed _ (by simp)
  have located : entry.path.OneLine := oneLine entry listed _ (by simp)
  exact (statement_append (by simp +decide [named, located]) (by decide)).plain

private theorem comprises_messageFile {file : MessageFile}
    (oneLine : ∀ text ∈ file.texts, text.OneLine) :
    ∃ rest, messageFile file = "// package: " ++ file.package ++ rest ∧
      Comprises rest file.headers := by
  rw [MessageFile.texts] at oneLine
  simp only [List.forall_mem_append, List.forall_mem_flatMap] at oneLine
  obtain ⟨⟨⟨⟨own, importTexts⟩, messageTexts⟩, enumTexts⟩, extensionTexts⟩ := oneLine
  have sourced : file.protoFile.OneLine := own _ (by simp)
  have lines : Comprises (block ["// file: " ++ file.protoFile, [], "/* tslint:disable */",
      "/* eslint-disable */", []]) [] := by
    refine comprises_plain ?_
    simp only [List.forall_mem_cons]
    refine ⟨⟨by simp +decide [sourced], rfl⟩, ⟨by decide, rfl⟩, ?_, ?_, ⟨by decide, rfl⟩, by simp⟩
    · exact plain_of_getLast? (by decide) rfl (by decide)
    · exact plain_of_getLast? (by decide) rfl (by decide)
  have ending : Comprises (block [[]]) [] := comprises_line ⟨by decide, rfl⟩
  have whole := ((((lines.append (comprises_importLines importTexts)).append
    (comprises_messages file.messages messageTexts)).append (comprises_enums enumTexts)).append
    (comprises_extensions extensionTexts)).append ending
  refine ⟨_, ?_, whole.congr (by simp [MessageFile.headers])⟩
  rw [messageFile, fileHeader, ← append_block_eq_join]
  simp only [List.append_assoc]
  rfl

/-- The headers in a generated file are those of the messages and enums that the file declares, in
the order of the walk, each indented by two columns for every message that it is inside of. -/
theorem rendered_headers {file : MessageFile} (named : file.protoFile ≠ [])
    (oneLine : ∀ text ∈ file.texts, text.OneLine) :
    ∃ text, renderMessages file = .ok text ∧
      (Text.split Text.newline text).filter (fun line => IsHeader line) =
        file.headers.map Header.line := by
  refine ⟨messageFile file, by rw [renderMessages, if_neg named], ?_⟩
  obtain ⟨_, laid, lines, rfl, whole, headers⟩ := comprises_messageFile oneLine
  have package : file.package.OneLine := oneLine _ (by simp [MessageFile.texts])
  have first : Text.OneLine ("// package: " ++ file.package) :=
    Text.oneLine_append.mpr ⟨by decide, package⟩
  have plain : Header.read? ("// package: " ++ file.package) = none := rfl
  rw [laid, split_append_block first whole, filter_isHeader, List.filterMap_cons_none plain, headers]

/-- Messages and enums inside each other, with headers in a comment and as a member's name. -/
def nestFile : MessageFile where
  protoFile := "nest.proto"
  messages := [{
    name := "Nest"
    declaredName := "Nest"
    comment := ["export class Egg extends jspb.Message \x7b"]
    fields := [{ accessorName := "Size", objectName := "export interface EggMap \x7b", type := {} }]
    messages := [{ name := "Twig", messages := [{ name := "Leaf" }], enums := [{ name := "Bark" }] }]
    enums := [{ name := "Tree" }] }]
  enums := [{ name := "Season", values := [{ name := "SPRING" }] }]

theorem rendered_headers_nestFile :
    ∃ text, renderMessages nestFile = .ok text ∧
      (Text.split Text.newline text).filter (fun line => IsHeader line) =
        ["export class Nest extends jspb.Message \x7b",
          "  export class Twig extends jspb.Message \x7b",
          "    export class Leaf extends jspb.Message \x7b",
          "    export interface BarkMap \x7b",
          "  export interface TreeMap \x7b",
          "export interface SeasonMap \x7b"] := by
  obtain ⟨text, rendered, headers⟩ :=
    rendered_headers (show nestFile.protoFile ≠ [] by decide) (by decide +kernel)
  refine ⟨text, rendered, headers.trans ?_⟩
  decide +kernel

end Layout

end ProtoTypings
