import Mathlib.Data.List.Perm.Basic
import ProtoTypings.Proofs.DeclaredName

set_option autoImplicit false
set_option relaxedAutoImplicit false

/-!
The names that are declared in one scope: at the top level of a file, or in the namespace of a
message. They repeat exactly if the schema repeats a name there, if it gives an element the name of
an enum's interface, or if it gives a nested element the name of the object type. The symbol table
keeps the schema from the first, as long as full names are made of scopes and names.
-/

namespace ProtoTypings

/-- The names of the messages and of the enums in one scope. -/
structure Scope where
  messages : List Text
  enums : List Text

namespace Scope

def mapName (enum : Text) : Text := enum ++ "Map"

def elements (scope : Scope) : List Text := scope.messages ++ scope.enums

def declared (scope : Scope) : List Text :=
  scope.messages ++ scope.enums.flatMap fun enum => [enum, mapName enum]

/-- No element has the name of an enum's interface. -/
def Underived (scope : Scope) : Prop :=
  ∀ name ∈ scope.elements, ∀ enum ∈ scope.enums, name ≠ mapName enum

instance (scope : Scope) : Decidable scope.Underived :=
  inferInstanceAs (Decidable (∀ name ∈ scope.elements, ∀ enum ∈ scope.enums, name ≠ mapName enum))

private theorem declared_perm (scope : Scope) :
    scope.declared.Perm (scope.elements ++ scope.enums.map mapName) := by
  have interfaces : (scope.enums.map id ++ scope.enums.flatMap fun enum => [mapName enum]).Perm
      (scope.enums.flatMap fun enum => [id enum, mapName enum]) :=
    List.map_append_flatMap_perm scope.enums id fun enum => [mapName enum]
  rw [List.map_id, ← List.map_eq_flatMap] at interfaces
  rw [declared, elements, List.append_assoc]
  exact interfaces.symm.append_left scope.messages

private theorem mem_declared {scope : Scope} {name : Text} :
    name ∈ scope.declared ↔ name ∈ scope.elements ∨ ∃ enum ∈ scope.enums, mapName enum = name := by
  rw [scope.declared_perm.mem_iff, List.mem_append, List.mem_map]

private theorem declared_nodup_iff (scope : Scope) :
    scope.declared.Nodup ↔ scope.elements.Nodup ∧ scope.Underived := by
  rw [scope.declared_perm.nodup_iff, List.nodup_append]
  constructor
  · rintro ⟨distinct, -, apart⟩
    refine ⟨distinct, ?_⟩
    intro name member enum enumMember
    exact apart name member (mapName enum) (List.mem_map_of_mem enumMember)
  · rintro ⟨distinct, underived⟩
    refine ⟨distinct, ?_, ?_⟩
    · have enums : scope.enums.Nodup := (List.nodup_append.mp distinct).2.1
      have injective : Function.Injective mapName := fun _ _ same => List.append_cancel_right same
      exact enums.map injective
    · intro name member interface interfaceMember
      obtain ⟨enum, enumMember, rfl⟩ := List.mem_map.mp interfaceMember
      exact underived name member enum enumMember

/-- The name of the type of plain objects in the namespace of a message. -/
def objectName : Text := "AsObject"

private theorem objectName_ne_mapName (enum : Text) : objectName ≠ mapName enum := by
  intro same
  have last : (mapName enum).getLast? = some 112 := by
    rw [mapName, List.getLast?_append]
    rfl
  rw [← same] at last
  exact absurd last (by decide)

private theorem objectName_cons_declared_nodup_iff (scope : Scope) :
    (objectName :: scope.declared).Nodup ↔
      scope.elements.Nodup ∧ scope.Underived ∧ objectName ∉ scope.elements := by
  have absent : objectName ∉ scope.declared ↔ objectName ∉ scope.elements := by
    rw [mem_declared]
    constructor
    · intro apart member
      exact apart (Or.inl member)
    · rintro apart (member | ⟨enum, -, same⟩)
      · exact apart member
      · exact objectName_ne_mapName enum same.symm
  rw [List.nodup_cons, absent, declared_nodup_iff]
  tauto

end Scope

namespace Schema

def Message.scope (message : Message) : Scope :=
  ⟨message.messages.map (·.name), message.enums.map (·.name)⟩

def File.scope (file : File) : Scope := ⟨file.messages.map (·.name), file.enums.map (·.name)⟩

/-- The full names of messages and enums are made of that of their scope and of their names. -/
def QualifiedBy (scope : Text) (messages : List Message) (enums : List Enum) : Prop :=
  (∀ message ∈ messages, message.fullName = scope ++ Text.dot :: message.name) ∧
    ∀ enum ∈ enums, enum.fullName = scope ++ Text.dot :: enum.name

structure File.Qualified (file : File) : Prop where
  top : QualifiedBy (packageScope file.package) file.messages file.enums
  nested : ∀ position message, file.messageAt? position = some message →
    QualifiedBy message.fullName message.messages message.enums

private theorem File.qualified_ofDescriptor {raw : Descriptor.File} {file : File}
    (converted : File.ofDescriptor raw = .ok file) : file.Qualified := by
  have names := File.ofDescriptor_eq_ok converted
  constructor
  · refine ⟨?_, names.enums⟩
    intro message member
    obtain ⟨origin, -, path, origins⟩ := names.messages message member
    exact (Message.ofDescriptor_eq_ok origins).fullName
  · intro position message found
    have origin : ∃ scope path origin,
        Message.ofDescriptor raw.locations scope path origin = .ok message := by
      refine nodeAt?_invariant (P := fun message => ∃ scope path origin,
        Message.ofDescriptor raw.locations scope path origin = .ok message) ?_ ?_ found
      · rintro parent ⟨scope, path, origin, made⟩ child member
        obtain ⟨childOrigin, -, childPath, childMade⟩ :=
          (Message.ofDescriptor_eq_ok made).messages child member
        exact ⟨_, childPath, childOrigin, childMade⟩
      · intro root member
        obtain ⟨origin, -, path, origins⟩ := names.messages root member
        exact ⟨_, path, origin, origins⟩
    obtain ⟨scope, path, origin, made⟩ := origin
    have inner := Message.ofDescriptor_eq_ok made
    refine ⟨?_, inner.enums⟩
    intro nested member
    obtain ⟨_, -, _, nestedMade⟩ := inner.messages nested member
    exact (Message.ofDescriptor_eq_ok nestedMade).fullName

private theorem QualifiedBy.nodup {scope : Text} {messages : List Message} {enums : List Enum}
    (qualified : QualifiedBy scope messages enums)
    (distinct : (messages.map (·.fullName) ++ enums.map (·.fullName)).Nodup) :
    (messages.map (·.name) ++ enums.map (·.name)).Nodup := by
  have fullNames : messages.map (·.fullName) ++ enums.map (·.fullName) =
      (messages.map (·.name) ++ enums.map (·.name)).map fun name => scope ++ Text.dot :: name := by
    rw [List.map_append, List.map_map, List.map_map]
    congr 1
    · exact List.map_congr_left qualified.1
    · exact List.map_congr_left qualified.2
  rw [fullNames] at distinct
  exact distinct.of_map _

end Schema

namespace Symbol

private theorem fullNames_sublist (file scope : Text) (messages : List Schema.Message)
    (enums : List Schema.Enum) :
    (messages.map (·.fullName) ++ enums.map (·.fullName)).Sublist
      ((messages.flatMap (ofMessage file scope) ++ ofEnums file scope enums).map
        qualifiedName) := by
  have ofEnums_names : (ofEnums file scope enums).map qualifiedName = enums.map (·.fullName) := by
    rw [ofEnums, List.map_map]
    rfl
  rw [List.map_append, ofEnums_names]
  apply List.Sublist.append _ (List.Sublist.refl _)
  induction messages with
  | nil => exact List.Sublist.refl _
  | cons message rest ih =>
    rw [List.flatMap_cons, List.map_append, List.map_cons, ofMessage_eq, List.map_cons]
    exact (ih.trans (List.sublist_append_right _ _)).cons_cons message.fullName

private theorem nodup_ofMessage {file : Schema.File}
    (distinct : ((ofFile file).map qualifiedName).Nodup) {position : List Nat}
    {message : Schema.Message} (found : file.messageAt? position = some message) :
    ∃ scope, ((ofMessage file.path scope message).map qualifiedName).Nodup := by
  have part {scope : Text} {messages : List Schema.Message} {rest : List Symbol}
      (whole : ((messages.flatMap (ofMessage file.path scope) ++ rest).map qualifiedName).Nodup)
      (message : Schema.Message) (member : message ∈ messages) :
      ((ofMessage file.path scope message).map qualifiedName).Nodup := by
    rw [List.map_append, List.map_flatMap] at whole
    have front := (List.nodup_append.mp whole).1
    exact (List.nodup_flatMap.mp front).1 message member
  refine nodeAt?_invariant (P := fun message => ∃ scope,
    ((ofMessage file.path scope message).map qualifiedName).Nodup) ?_ ?_ found
  · rintro parent ⟨scope, parentDistinct⟩ child member
    rw [ofMessage_eq, List.map_cons, List.nodup_cons] at parentDistinct
    exact ⟨_, part parentDistinct.2 child member⟩
  · intro root member
    rw [ofFile, ofMessages_eq_flatMap] at distinct
    exact ⟨_, part distinct root member⟩

end Symbol

namespace Schema

private theorem File.Qualified.nodup {style : ImportStyle} {files : List File} {table : SymbolTable}
    (built : SymbolTable.ofFiles style files = .ok table) {file : File} (member : file ∈ files)
    (qualified : file.Qualified) :
    file.scope.elements.Nodup ∧ ∀ position message, file.messageAt? position = some message →
      message.scope.elements.Nodup := by
  obtain ⟨rfl, distinct⟩ := SymbolTable.ofFiles_eq_ok built
  have own : ((Symbol.ofFile file).map Symbol.qualifiedName).Nodup := by
    rw [SymbolTable.Distinct, Symbol.ofFiles, List.map_flatMap] at distinct
    exact (List.nodup_flatMap.mp distinct).1 file member
  constructor
  · apply qualified.top.nodup
    rw [Symbol.ofFile, Symbol.ofMessages_eq_flatMap] at own
    exact own.sublist (Symbol.fullNames_sublist _ _ _ _)
  · intro position message found
    apply (qualified.nested position message found).nodup
    obtain ⟨scope, inside⟩ := Symbol.nodup_ofMessage own found
    rw [Symbol.ofMessage_eq, List.map_cons, List.nodup_cons] at inside
    exact inside.2.sublist (Symbol.fullNames_sublist _ _ _ _)

end Schema

namespace Declaration

section

variable {α β : Type}

def Message.scope (message : Message α) : Scope :=
  ⟨message.messages.map (·.name), message.enums.map (·.name)⟩

def Outline.scope (outline : Outline α) : Scope :=
  ⟨outline.messages.map (·.name), outline.enums.map (·.name)⟩

@[simp] theorem Message.scope_mapType (f : α → β) (message : Message α) :
    (message.mapType f).scope = message.scope := by
  simp [Message.scope, Function.comp_def]

@[simp] theorem Outline.scope_mapType (f : α → β) (outline : Outline α) :
    (outline.mapType f).scope = outline.scope := by
  simp [Outline.scope, Outline.mapType, Message.mapTypes_eq_map, Function.comp_def]

end

private theorem Context.names_of_messages {context : Context} {scope : Text}
    {messages : List Schema.Message} {made : List (Message FieldType)}
    (outlined : List.Forall₂ (fun message made => context.message scope message = .ok made)
      messages made) : messages.map (·.name) = made.map (·.name) := by
  apply Result.map_eq_map_iff.mpr
  refine outlined.imp ?_
  intro message declared declaredMade
  exact (name_of_message declaredMade).symm

private theorem Context.Outlines.scope {context : Context} {scope : Text} {message : Schema.Message}
    {made : Message FieldType} (outlines : context.Outlines scope message made) :
    message.scope = made.scope := by
  rw [Schema.Message.scope, Message.scope, names_of_messages outlines.messages, outlines.enums,
    List.map_map]
  rfl

private theorem Context.OutlinesFile.scope {context : Context} {file : Schema.File}
    {outline : Outline FieldType} (outlined : context.OutlinesFile file outline) :
    file.scope = outline.scope := by
  rw [Schema.File.scope, Outline.scope, names_of_messages outlined.messages, outlined.enums,
    List.map_map]
  rfl

/-- A message and what became of it: its outline in a scope, with the types changed. -/
def Context.Declares {β : Type} (context : Context) (f : FieldType → β) (message : Schema.Message)
    (declared : Message β) : Prop :=
  ∃ scope made, context.Outlines scope message made ∧ declared = made.mapType f

section

variable {β : Type} {context : Context} {f : FieldType → β}

private theorem Context.declares_of_outlines {scope : Text} {messages : List Schema.Message}
    {made : List (Message FieldType)}
    (outlined : List.Forall₂ (fun message made => context.message scope message = .ok made)
      messages made) :
    List.Forall₂ (context.Declares f) messages (made.map (Message.mapType f)) := by
  rw [List.forall₂_map_right_iff]
  refine outlined.imp ?_
  intro message declared declaredMade
  exact ⟨scope, declared, message_eq_ok declaredMade, rfl⟩

theorem Context.Declares.messages {message : Schema.Message} {declared : Message β}
    (declares : context.Declares f message declared) :
    List.Forall₂ (context.Declares f) message.messages declared.messages := by
  obtain ⟨scope, made, outlines, rfl⟩ := declares
  rw [Message.messages_mapType]
  exact declares_of_outlines outlines.messages

theorem Context.Declares.scope {message : Schema.Message} {declared : Message β}
    (declares : context.Declares f message declared) : declared.scope = message.scope := by
  obtain ⟨scope, made, outlines, rfl⟩ := declares
  rw [Message.scope_mapType]
  exact outlines.scope.symm

theorem Context.OutlinesFile.declares {file : Schema.File} {outline : Outline FieldType}
    (outlined : context.OutlinesFile file outline) :
    List.Forall₂ (context.Declares f) file.messages (outline.mapType f).messages := by
  rw [Outline.mapType, Message.mapTypes_eq_map]
  exact declares_of_outlines outlined.messages

end

/-- Where a scope declares a name twice. The elements of a scope differ as long as full names are
qualified, since the table refuses equal ones; but no check keeps them from the names of enum
interfaces and of object types. -/
theorem scopes_distinct_iff {style : ImportStyle} {files : List Schema.File} {table : SymbolTable}
    (built : SymbolTable.ofFiles style files = .ok table) {file : Schema.File}
    (member : file ∈ files) {options : Options} {emitted : MessageFile}
    (made : MessageFile.ofSchema file table options = .ok emitted) :
    ((emitted.scope.declared.Nodup ∧
      ∀ position message, emitted.messageAt? position = some message →
        (Scope.objectName :: message.scope.declared).Nodup) ↔
      (file.scope.elements.Nodup ∧ file.scope.Underived) ∧
        ∀ position message, file.messageAt? position = some message →
          message.scope.elements.Nodup ∧ message.scope.Underived ∧
            Scope.objectName ∉ message.scope.elements) ∧
    (file.Qualified → file.scope.elements.Nodup ∧
      ∀ position message, file.messageAt? position = some message →
        message.scope.elements.Nodup) := by
  refine ⟨?_, Schema.File.Qualified.nodup built member⟩
  obtain ⟨outline, outlined, rfl⟩ := MessageFile.ofSchema_eq_ok made
  apply and_congr
  · change (outline.mapType _).scope.declared.Nodup ↔ _
    rw [Outline.scope_mapType, ← outlined.scope, Scope.declared_nodup_iff]
  · apply forall_congr'
    intro position
    apply Iff.symm
    apply nodeAt?_forall_iff (fun _ _ declares => declares.messages) outlined.declares
    intro message declared declares _ _
    rw [declares.scope, Scope.objectName_cons_declared_nodup_iff]

/-- A file with an enum at the top level and a message that has an enum and a message inside; the
name of the latter is taken one level up, by the interface of the enum. -/
def ledgerDescriptor : Descriptor.File :=
  { name := "ledger.proto"
    package := "ledger"
    messages := [{
      name := "Entry"
      nested := [{ name := "StateMap" }]
      enums := [{ name := "Side" }] }]
    enums := [{ name := "State" }] }

def ledger : Schema.File :=
  { path := "ledger.proto"
    package := "ledger"
    syntaxName := "proto2"
    messages := [{
      name := "Entry"
      fullName := ".ledger.Entry"
      messages := [{ name := "StateMap", fullName := ".ledger.Entry.StateMap" }]
      enums := [{ name := "Side", fullName := ".ledger.Entry.Side" }] }]
    enums := [{ name := "State", fullName := ".ledger.State" }] }

theorem scopes_distinct_iff_ledger :
    ∃ table emitted, Schema.File.ofDescriptor ledgerDescriptor = .ok ledger ∧
      SymbolTable.ofFiles .fromRoot [ledger] = .ok table ∧
      MessageFile.ofSchema ledger table {} = .ok emitted ∧
      emitted.scope.declared.Nodup ∧
      ∀ position message, emitted.messageAt? position = some message →
        (Scope.objectName :: message.scope.declared).Nodup := by
  have converted : Schema.File.ofDescriptor ledgerDescriptor = .ok ledger := rfl
  have built : SymbolTable.ofFiles .fromRoot [ledger] =
    .ok ⟨Symbol.ofFiles [ledger], .fromRoot⟩ := rfl
  have emitted : ∃ emitted, MessageFile.ofSchema ledger
    ⟨Symbol.ofFiles [ledger], .fromRoot⟩ {} = .ok emitted := ⟨_, rfl⟩
  obtain ⟨emitted, made⟩ := emitted
  obtain ⟨exactly, distinct⟩ := scopes_distinct_iff built List.mem_cons_self made
  obtain ⟨top, nested⟩ := distinct (Schema.File.qualified_ofDescriptor converted)
  have underived : ∀ position message, ledger.messageAt? position = some message →
      message.scope.Underived ∧ Scope.objectName ∉ message.scope.elements := by
    intro position message found
    -- Two levels of messages: what is said of the outer ones says the same of the inner ones.
    refine (nodeAt?_invariant (P := fun message => (message.scope.Underived ∧
      Scope.objectName ∉ message.scope.elements) ∧
      ∀ child ∈ message.messages, (child.scope.Underived ∧
        Scope.objectName ∉ child.scope.elements) ∧ child.messages.length = 0) ?_ ?_ found).1
    · rintro parent ⟨-, children⟩ child member
      obtain ⟨own, leaf⟩ := children child member
      rw [List.length_eq_zero_iff] at leaf
      exact ⟨own, by simp [leaf]⟩
    · decide +kernel
  refine ⟨_, emitted, converted, built, made, exactly.mpr ⟨⟨top, by decide⟩, ?_⟩⟩
  intro position message found
  exact ⟨nested position message found, underived position message found⟩

/-- A message with the name of an enum's interface, and inside it one with the name of the object
type. -/
def repeatingDescriptor : Descriptor.File :=
  { name := "a.proto"
    messages := [{ name := "FooMap", nested := [{ name := "AsObject" }] }]
    enums := [{ name := "Foo" }] }

theorem scopes_repeated_mapName :
    ∃ file table emitted, Schema.File.ofDescriptor repeatingDescriptor = .ok file ∧
      SymbolTable.ofFiles .fromRoot [file] = .ok table ∧
      MessageFile.ofSchema file table {} = .ok emitted ∧
      ¬emitted.scope.declared.Nodup ∧
      ∃ message, emitted.messageAt? [0] = some message ∧
        ¬(Scope.objectName :: message.scope.declared).Nodup := by
  refine ⟨_, _, _, rfl, rfl, rfl, ?_, _, rfl, ?_⟩
  · decide +kernel
  · decide +kernel

end Declaration

end ProtoTypings
