import ProtoTypings.Proofs.Collected
import ProtoTypings.Proofs.Position

set_option autoImplicit false
set_option relaxedAutoImplicit false

/-!
Outlines follow the schema: what the outline of a message is made of, level by level, and what
becomes of it when its types are spelled. The same for services and the signatures of their methods.
-/

namespace ProtoTypings.Declaration

namespace Context

private theorem nestedMessages_eq_ok {context : Context} {scope : Text}
    {messages : List Schema.Message} {outlines : List (Message FieldType)} :
    context.nestedMessages scope messages = .ok outlines ↔
      List.Forall₂ (fun message outline => context.message scope message = .ok outline)
        messages outlines := by
  induction messages generalizing outlines with
  | nil =>
    rw [nestedMessages, Result.pure_eq_ok, List.forall₂_nil_left_iff]
    exact eq_comm
  | cons message rest ih =>
    simp only [nestedMessages, Result.bind_eq_ok, Result.located_eq_ok, Result.pure_eq_ok, ih,
      List.forall₂_cons_left_iff]
    constructor
    · rintro ⟨first, made, more, restMade, rfl⟩
      exact ⟨first, more, made, restMade, rfl⟩
    · rintro ⟨first, more, made, restMade, rfl⟩
      exact ⟨first, made, more, restMade, rfl⟩

structure Outlines (context : Context) (scope : Text) (message : Schema.Message)
    (outline : Message FieldType) : Prop where
  declaredName : outline.declaredName = Identifier.qualified scope message.name
  fields : List.Forall₂ (fun field made => context.field field = .ok made)
    message.fields outline.fields
  messages : List.Forall₂ (fun nested made =>
    context.message outline.declaredName nested = .ok made) message.messages outline.messages
  enums : outline.enums = message.enums.map (context.enum outline.declaredName)
  extensions : List.Forall₂ (fun field made => context.extension field = .ok made)
    message.extensions outline.extensions

theorem message_eq_ok {context : Context} {scope : Text} {message : Schema.Message}
    {outline : Message FieldType} (made : context.message scope message = .ok outline) :
    context.Outlines scope message outline := by
  cases message
  rw [Context.message] at made
  obtain ⟨fields, fieldsMade, made⟩ := Result.bind_eq_ok.mp made
  obtain ⟨messages, messagesMade, made⟩ := Result.bind_eq_ok.mp made
  obtain ⟨extensions, extensionsMade, made⟩ := Result.bind_eq_ok.mp made
  obtain rfl := Result.pure_eq_ok.mp made
  exact ⟨rfl, Result.mapM_eq_ok.mp fieldsMade, nestedMessages_eq_ok.mp messagesMade, rfl,
    Result.mapM_eq_ok.mp extensionsMade⟩

theorem name_of_message {context : Context} {scope : Text} {message : Schema.Message}
    {made : Message FieldType} (outlined : context.message scope message = .ok made) :
    made.name = message.name := by
  cases message
  rw [Context.message] at outlined
  obtain ⟨_, -, outlined⟩ := Result.bind_eq_ok.mp outlined
  obtain ⟨_, -, outlined⟩ := Result.bind_eq_ok.mp outlined
  obtain ⟨_, -, outlined⟩ := Result.bind_eq_ok.mp outlined
  obtain rfl := Result.pure_eq_ok.mp outlined
  rfl

structure OutlinesFile (context : Context) (file : Schema.File) (outline : Outline FieldType) :
    Prop where
  messages : List.Forall₂ (fun message made => context.message [] message = .ok made)
    file.messages outline.messages
  enums : outline.enums = file.enums.map (context.enum [])
  extensions : List.Forall₂ (fun field made => context.extension field = .ok made)
    file.extensions outline.extensions

theorem outline_eq_ok {context : Context} {file : Schema.File} {outline : Outline FieldType}
    (made : context.outline file = .ok outline) : context.OutlinesFile file outline := by
  rw [Context.outline] at made
  obtain ⟨messages, messagesMade, made⟩ := Result.bind_eq_ok.mp made
  obtain ⟨extensions, extensionsMade, made⟩ := Result.bind_eq_ok.mp made
  obtain rfl := Result.pure_eq_ok.mp made
  refine ⟨?_, rfl, Result.mapM_eq_ok.mp extensionsMade⟩
  exact (Result.mapM_eq_ok.mp messagesMade).imp fun _ _ => Result.located_eq_ok.mp

theorem field_eq_ok {context : Context} {field : Schema.Field} {made : Field FieldType}
    (outlined : context.field field = .ok made) :
    FieldType.ofField context.table context.source field = .ok made.type := by
  rw [Context.field] at outlined
  split at outlined
  · simp at outlined
  · rename_i type typed
    obtain rfl := Except.ok.inj outlined
    exact typed

theorem extension_eq_ok {context : Context} {field : Schema.Field} {made : Extension FieldType}
    (outlined : context.extension field = .ok made) :
    FieldType.ofField context.table context.source field = .ok made.type := by
  rw [Context.extension] at outlined
  split at outlined
  · simp at outlined
  · rename_i type typed
    obtain rfl := Except.ok.inj outlined
    exact typed

theorem OutlinesFile.messageAt? {context : Context} {file : Schema.File}
    {outline : Outline FieldType} (outlined : context.OutlinesFile file outline)
    {position : List Nat} {message : Schema.Message}
    (found : file.messageAt? position = some message) :
    ∃ made, outline.messageAt? position = some made ∧
      ∃ scope, context.Outlines scope message made := by
  have initial : List.Forall₂ (fun message made => ∃ scope, context.message scope message = .ok made)
      file.messages outline.messages := outlined.messages.imp fun _ _ made => ⟨[], made⟩
  obtain ⟨made, foundMade, scope, madeHere⟩ := nodeAt?_related (fun _ _ ⟨_, madeHere⟩ =>
    (message_eq_ok madeHere).messages.imp fun _ _ nested => ⟨_, nested⟩) initial found
  exact ⟨made, foundMade, scope, message_eq_ok madeHere⟩

end Context

section

variable {α β : Type}

@[simp] theorem Message.name_mapType (f : α → β) (message : Message α) :
    (message.mapType f).name = message.name := by
  cases message
  rfl

@[simp] theorem Message.declaredName_mapType (f : α → β) (message : Message α) :
    (message.mapType f).declaredName = message.declaredName := by
  cases message
  rfl

@[simp] theorem Message.fields_mapType (f : α → β) (message : Message α) :
    (message.mapType f).fields = message.fields.map (Field.mapType f) := by
  cases message
  rfl

@[simp] theorem Message.messages_mapType (f : α → β) (message : Message α) :
    (message.mapType f).messages = message.messages.map (mapType f) := by
  cases message
  exact mapTypes_eq_map f _

@[simp] theorem Message.enums_mapType (f : α → β) (message : Message α) :
    (message.mapType f).enums = message.enums := by
  cases message
  rfl

@[simp] theorem Message.extensions_mapType (f : α → β) (message : Message α) :
    (message.mapType f).extensions = message.extensions.map (Extension.mapType f) := by
  cases message
  rfl

theorem Outline.messageAt?_mapType_eq_map (f : α → β) (outline : Outline α)
    (position : List Nat) :
    (outline.mapType f).messageAt? position =
      (outline.messageAt? position).map (Message.mapType f) := by
  have messages : (outline.mapType f).messages = outline.messages.map (Message.mapType f) :=
    Message.mapTypes_eq_map f outline.messages
  rw [messageAt?, messages]
  exact nodeAt?_map (Message.messages_mapType f) outline.messages position

theorem Outline.messageAt?_mapType (f : α → β) {outline : Outline α} {position : List Nat}
    {message : Message α} (found : outline.messageAt? position = some message) :
    (outline.mapType f).messageAt? position = some (message.mapType f) := by
  rw [messageAt?_mapType_eq_map, found, Option.map_some]

theorem Message.types_eq (message : Message α) :
    message.types = message.fields.map (·.type) ++ (message.messages.flatMap types ++
      message.extensions.map (·.type)) := by
  cases message
  rw [types, typesOfAll_eq_flatMap]

theorem Outline.types_messageAt? {outline : Outline α} {position : List Nat} {message : Message α}
    (found : outline.messageAt? position = some message) : message.types ⊆ outline.types := by
  refine nodeAt?_invariant (P := fun message => message.types ⊆ outline.types) ?_ ?_ found
  · intro message contained nested member type typeMember
    refine contained ?_
    rw [Message.types_eq]
    exact List.mem_append_right _ (List.mem_append_left _
      (List.mem_flatMap.mpr ⟨nested, member, typeMember⟩))
  · intro message member type typeMember
    rw [Outline.types, Message.typesOfAll_eq_flatMap]
    exact List.mem_append_left _ (List.mem_flatMap.mpr ⟨message, member, typeMember⟩)

end

theorem MessageFile.ofSchema_eq_ok {file : Schema.File} {table : SymbolTable} {options : Options}
    {emitted : MessageFile} (made : MessageFile.ofSchema file table options = .ok emitted) :
    ∃ outline, (Context.ofFile file table options).OutlinesFile file outline ∧
      emitted = { outline.mapType (FieldType.spell (outline.imports (topLevelNames file)).spell) with
        protoFile := file.path
        package := file.package
        imports := (outline.imports (topLevelNames file)).entries } := by
  rw [MessageFile.ofSchema_eq_map] at made
  obtain ⟨outline, outlined, rfl⟩ := Result.map_eq_ok.mp made
  exact ⟨outline, Context.outline_eq_ok outlined, rfl⟩

theorem Signature.ofSchema_eq_ok {table : SymbolTable} {source : Text} {method : Schema.Method}
    {signature : Signature} (made : Signature.ofSchema table source method = .ok signature) :
    signature.method = method ∧
      table.resolveMessage method.inputType source = .ok signature.request ∧
      table.resolveMessage method.outputType source = .ok signature.response := by
  rw [Signature.ofSchema] at made
  obtain ⟨request, requestMade, made⟩ := Result.bind_eq_ok.mp made
  obtain ⟨response, responseMade, made⟩ := Result.bind_eq_ok.mp made
  obtain rfl := Result.pure_eq_ok.mp made
  exact ⟨rfl, Result.located_eq_ok.mp requestMade, Result.located_eq_ok.mp responseMade⟩

theorem Service.signatures_eq_ok {table : SymbolTable} {source : Text} {options : Options}
    {service : Schema.Service} {signed : Service Signature}
    (made : Service.signatures table source options service = .ok signed) :
    List.Forall₂ (fun method signature => Signature.ofSchema table source method = .ok signature)
      service.methods signed.methods := by
  rw [Service.signatures] at made
  obtain ⟨methods, methodsMade, made⟩ := Result.bind_eq_ok.mp made
  obtain rfl := Result.pure_eq_ok.mp made
  exact (Result.mapM_eq_ok.mp methodsMade).imp fun _ _ => Result.located_eq_ok.mp

theorem ServiceFile.ofSchema_eq_ok {file : Schema.File} {table : SymbolTable} {options : Options}
    {emitted : ServiceFile} (made : ServiceFile.ofSchema file table options = .ok (some emitted)) :
    ∃ services taken, file.services ≠ [] ∧ List.Forall₂ (fun service signed =>
        Service.signatures table file.path options service = .ok signed) file.services services ∧
      emitted = {
        protoFile := file.path
        package := file.package
        grpcModule := grpcRuntime options.grpcJs
        grpcJs := options.grpcJs
        imports := (serviceImports services options.grpcJs taken).entries
        services := services.map (Service.spelled options.comments
          (serviceImports services options.grpcJs taken).spell) } := by
  rw [ServiceFile.ofSchema_eq_map] at made
  split at made
  · cases made
  · rename_i services
    obtain ⟨signed, signatures, same⟩ := Result.map_eq_ok.mp made
    obtain rfl := Option.some.inj same
    exact ⟨signed, _, by simpa using services, Result.mapM_eq_ok.mp signatures, rfl⟩

end ProtoTypings.Declaration
