import ProtoTypings.Proofs.Outline

set_option autoImplicit false
set_option relaxedAutoImplicit false

/-!
Changes of declarations that keep their shape, and outlines of one schema file made in two contexts:
if the leaves agree up to such changes, so do the outlines, and if one fails, the other fails alike.
-/

namespace ProtoTypings.Declaration

variable {α β γ : Type}

/-- What happens to the types, to the keys in plain objects and to the comments of declarations. -/
structure Change (α β : Type) where
  type : α → β
  objectName : Text → Text := id
  comment : List Text → List Text := id

def Change.after (later : Change β γ) (first : Change α β) : Change α γ where
  type := later.type ∘ first.type
  objectName := later.objectName ∘ first.objectName
  comment := later.comment ∘ first.comment

def Field.change (change : Change α β) (field : Field α) : Field β :=
  { field with
    type := change.type field.type
    objectName := change.objectName field.objectName
    comment := change.comment field.comment }

def Extension.change (change : Change α β) (extension : Extension α) : Extension β :=
  { extension with
    type := change.type extension.type
    comment := change.comment extension.comment }

def EnumValue.mapComment (f : List Text → List Text) (value : EnumValue) : EnumValue :=
  { value with comment := f value.comment }

def Enum.mapComment (f : List Text → List Text) (enum : Enum) : Enum :=
  { enum with
    values := enum.values.map (·.mapComment f)
    comment := f enum.comment }

mutual

def Message.change (change : Change α β) : Message α → Message β
  | { name, declaredName, fields, messages, enums, extensions, comment } =>
    { name
      declaredName
      fields := fields.map (·.change change)
      messages := Message.changeAll change messages
      enums := enums.map (·.mapComment change.comment)
      extensions := extensions.map (·.change change)
      comment := change.comment comment }

def Message.changeAll (change : Change α β) : List (Message α) → List (Message β)
  | [] => []
  | message :: rest => message.change change :: Message.changeAll change rest

end

def Outline.change (change : Change α β) (outline : Outline α) : Outline β where
  messages := Message.changeAll change outline.messages
  enums := outline.enums.map (·.mapComment change.comment)
  extensions := outline.extensions.map (·.change change)

private theorem Message.changeAll_eq_map (change : Change α β) (messages : List (Message α)) :
    changeAll change messages = messages.map (Message.change change) := by
  induction messages with
  | nil => rfl
  | cons message rest ih => rw [changeAll, ih, List.map_cons]

@[simp] theorem Enum.mapComment_id (enum : Enum) : enum.mapComment id = enum := by
  have values : enum.values.map (EnumValue.mapComment id) = enum.values := List.map_id _
  exact congrArg (fun values => { enum with values := values }) values

@[simp] theorem Enum.mapComment_mapComment (f g : List Text → List Text) (enum : Enum) :
    (enum.mapComment g).mapComment f = enum.mapComment (f ∘ g) := by
  simp only [mapComment, List.map_map]
  rfl

mutual

private theorem Message.change_change (later : Change β γ) (first : Change α β) :
    ∀ message : Message α, (message.change first).change later = message.change (later.after first)
  | { name, declaredName, fields, messages, enums, extensions, comment } => by
    simp only [Message.change, List.map_map, changeAll_changeAll later first messages]
    congr 1
    exact List.map_congr_left fun enum _ => enum.mapComment_mapComment _ _

private theorem Message.changeAll_changeAll (later : Change β γ) (first : Change α β) :
    ∀ messages : List (Message α),
      changeAll later (changeAll first messages) = changeAll (later.after first) messages
  | [] => rfl
  | message :: rest => by
    simp only [changeAll, change_change later first message, changeAll_changeAll later first rest]

end

theorem Outline.change_change (later : Change β γ) (first : Change α β) (outline : Outline α) :
    (outline.change first).change later = outline.change (later.after first) := by
  simp only [Outline.change, List.map_map, Message.changeAll_changeAll]
  congr 1
  exact List.map_congr_left fun enum _ => enum.mapComment_mapComment _ _

mutual

private theorem Message.change_type (f : α → β) : ∀ message : Message α,
    message.change ⟨f, id, id⟩ = message.mapType f
  | { name, declaredName, fields, messages, enums, extensions, comment } => by
    simp only [Message.change, Message.mapType, changeAll_type f messages]
    congr 1
    exact (List.map_congr_left fun enum _ => enum.mapComment_id).trans (List.map_id _)

private theorem Message.changeAll_type (f : α → β) : ∀ messages : List (Message α),
    changeAll ⟨f, id, id⟩ messages = mapTypes f messages
  | [] => rfl
  | message :: rest => by
    simp only [changeAll, mapTypes, change_type f message, changeAll_type f rest]

end

theorem Outline.change_type (f : α → β) (outline : Outline α) :
    outline.change ⟨f, id, id⟩ = outline.mapType f := by
  simp only [Outline.change, Outline.mapType, Message.changeAll_type]
  congr 1
  exact (List.map_congr_left fun enum _ => enum.mapComment_id).trans (List.map_id _)

theorem Outline.mapType_mapType (f : α → β) (g : β → γ) (outline : Outline α) :
    (outline.mapType f).mapType g = outline.mapType (g ∘ f) := by
  rw [← Outline.change_type, ← Outline.change_type, ← Outline.change_type, Outline.change_change]
  rfl

mutual

private theorem Message.mapType_id : ∀ message : Message α, message.mapType id = message
  | { name, declaredName, fields, messages, enums, extensions, comment } => by
    rw [mapType, mapTypes_id messages]
    congr 1
    · exact List.map_id _
    · exact List.map_id _

private theorem Message.mapTypes_id : ∀ messages : List (Message α), mapTypes id messages = messages
  | [] => rfl
  | message :: rest => by rw [mapTypes, mapType_id message, mapTypes_id rest]

end

theorem Outline.change_id (outline : Outline α) : outline.change ⟨id, id, id⟩ = outline := by
  rw [Outline.change_type, Outline.mapType, Message.mapTypes_id]
  exact congrArg (fun extensions => { outline with extensions := extensions }) (List.map_id _)

mutual

private theorem Message.types_change (change : Change α β) : ∀ message : Message α,
    (message.change change).types = message.types.map change.type
  | { name, declaredName, fields, messages, enums, extensions, comment } => by
    simp only [Message.change, types, List.map_append, List.map_map,
      typesOfAll_changeAll change messages]
    rfl

private theorem Message.typesOfAll_changeAll (change : Change α β) : ∀ messages : List (Message α),
    typesOfAll (changeAll change messages) = (typesOfAll messages).map change.type
  | [] => rfl
  | message :: rest => by
    simp only [changeAll, typesOfAll, List.map_append, types_change change message,
      typesOfAll_changeAll change rest]

end

theorem Outline.types_change (change : Change α β) (outline : Outline α) :
    (outline.change change).types = outline.types.map change.type := by
  simp only [Outline.change, Outline.types, Message.typesOfAll_changeAll, List.map_append,
    List.map_map]
  rfl

end ProtoTypings.Declaration

namespace ProtoTypings.Schema

mutual

def Message.members : Message → List Field
  | { fields, messages, extensions, .. } =>
    fields ++ (Message.membersOfAll messages ++ extensions)

def Message.membersOfAll : List Message → List Field
  | [] => []
  | message :: rest => message.members ++ Message.membersOfAll rest

end

/-- The fields and extensions of a file, at all levels. -/
def File.members (file : File) : List Field :=
  Message.membersOfAll file.messages ++ file.extensions

theorem Message.membersOfAll_eq_flatMap (messages : List Message) :
    membersOfAll messages = messages.flatMap members := by
  induction messages with
  | nil => rfl
  | cons message rest ih => rw [membersOfAll, ih, List.flatMap_cons]

end ProtoTypings.Schema

namespace ProtoTypings.Declaration.Context

mutual

private theorem types_message (context : Context) : ∀ (scope : Text) (message : Schema.Message)
    (outline : Message FieldType), context.message scope message = .ok outline →
      List.Forall₂ (fun field type =>
        FieldType.ofField context.table context.source field = .ok type)
        message.members outline.types
  | scope, { name, fullName, fields, messages, enums, oneofs, extensions, comments }, outline,
      made => by
    have outlines := message_eq_ok made
    rw [Schema.Message.members, Message.types_eq, ← Message.typesOfAll_eq_flatMap]
    refine List.rel_append ?_ (List.rel_append ?_ ?_)
    · exact List.forall₂_map_right_iff.mpr (outlines.fields.imp fun _ _ => field_eq_ok)
    · exact types_messages context _ messages outline.messages outlines.messages
    · exact List.forall₂_map_right_iff.mpr (outlines.extensions.imp fun _ _ => extension_eq_ok)

private theorem types_messages (context : Context) (scope : Text) :
    ∀ (messages : List Schema.Message) (outlines : List (Message FieldType)),
      List.Forall₂ (fun message made => context.message scope message = .ok made)
        messages outlines →
      List.Forall₂ (fun field type =>
        FieldType.ofField context.table context.source field = .ok type)
        (Schema.Message.membersOfAll messages) (Message.typesOfAll outlines)
  | [], [], .nil => .nil
  | message :: rest, outline :: outlines, .cons made more =>
    List.rel_append (types_message context scope message outline made)
      (types_messages context scope rest outlines more)

end

theorem types_outline {context : Context} {file : Schema.File} {outline : Outline FieldType}
    (made : context.outline file = .ok outline) :
    file.members.mapM (FieldType.ofField context.table context.source) = .ok outline.types := by
  have outlines := outline_eq_ok made
  refine Result.mapM_eq_ok.mpr (List.rel_append ?_ ?_)
  · exact types_messages context [] file.messages outline.messages outlines.messages
  · exact List.forall₂_map_right_iff.mpr (outlines.extensions.imp fun _ _ => extension_eq_ok)

variable {γ : Type} {change change' : Change FieldType γ} {context context' : Context}
  {fields : List Schema.Field}

/-- Two contexts in which what is made of certain fields agrees up to changes. -/
structure Alike (change change' : Change FieldType γ) (fields : List Schema.Field)
    (context context' : Context) : Prop where
  types : ∀ field ∈ fields, Result.Agree (fun type type' => change.type type = change'.type type')
    (FieldType.ofField context.table context.source field)
    (FieldType.ofField context'.table context'.source field)
  objectName : ∀ name, change.objectName (context.options.reserved.escape name) =
    change'.objectName (context'.options.reserved.escape name)
  comment : ∀ text, change.comment (context.comment text) =
    change'.comment (context'.comment text)
  proto3 : context.proto3 = context'.proto3

private theorem Alike.field (alike : Alike change change' fields context context')
    {field : Schema.Field} (member : field ∈ fields) :
    Result.Agree (fun made made' => made.change change = made'.change change')
      (context.field field) (context'.field field) := by
  rw [Context.field, Context.field]
  rcases (alike.types field member).cases with
    ⟨fault, failed, failed'⟩ | ⟨type, type', typed, typed', sameType⟩
  · simp only [Result.Agree, failed, failed']
  · simp only [Result.Agree, typed, typed', typedField, Field.change, alike.objectName,
      alike.comment, hasPresence, alike.proto3, sameType]

private theorem Alike.extension (alike : Alike change change' fields context context')
    {field : Schema.Field} (member : field ∈ fields) :
    Result.Agree (fun made made' => made.change change = made'.change change')
      (context.extension field) (context'.extension field) := by
  rw [Context.extension, Context.extension]
  rcases (alike.types field member).cases with
    ⟨fault, failed, failed'⟩ | ⟨type, type', typed, typed', sameType⟩
  · simp only [Result.Agree, failed, failed']
  · simp only [Result.Agree, typed, typed', typedExtension, Extension.change, alike.comment,
      sameType]

private theorem Alike.enums (alike : Alike change change' fields context context') (scope : Text)
    (enums : List Schema.Enum) :
    (enums.map (context.enum scope)).map (Enum.mapComment change.comment) =
      (enums.map (context'.enum scope)).map (Enum.mapComment change'.comment) := by
  rw [List.map_map, List.map_map]
  refine List.map_congr_left fun enum _ => ?_
  have values : enum.values.map (EnumValue.mapComment change.comment ∘ fun value =>
        { name := value.name, number := value.number, comment := context.comment value.comments }) =
      enum.values.map (EnumValue.mapComment change'.comment ∘ fun value =>
        { name := value.name
          number := value.number
          comment := context'.comment value.comments }) :=
    List.map_congr_left fun value _ => congrArg (EnumValue.mk _ _) (alike.comment value.comments)
  simp only [Function.comp_apply, Context.enum, Enum.mapComment, List.map_map, values,
    alike.comment]

mutual

private theorem Alike.message (alike : Alike change change' fields context context')
    (scope : Text) : ∀ message : Schema.Message, message.members ⊆ fields →
      Result.Agree (fun made made' => made.change change = made'.change change')
        (context.message scope message) (context'.message scope message)
  | { name, fullName, fields := own, messages, enums, oneofs, extensions, comments }, within => by
    rw [Schema.Message.members, List.append_subset, List.append_subset] at within
    rw [Context.message, Context.message]
    refine .bind (.mapM fun field member => alike.field (within.1 member)) ?_
    intro fields fields' fieldsAlike
    refine .bind (alike.nestedMessages _ messages within.2.1) ?_
    intro messages messages' messagesAlike
    refine .bind (.mapM fun field member => alike.extension (within.2.2 member)) ?_
    intro extensions extensions' extensionsAlike
    simp only [Result.Agree, pure, Except.pure, Message.change, messagesAlike, alike.comment,
      Result.map_eq_map_iff.mpr fieldsAlike, Result.map_eq_map_iff.mpr extensionsAlike,
      alike.enums]

private theorem Alike.nestedMessages (alike : Alike change change' fields context context')
    (scope : Text) :
    ∀ messages : List Schema.Message, Schema.Message.membersOfAll messages ⊆ fields →
      Result.Agree
        (fun made made' => Message.changeAll change made = Message.changeAll change' made')
        (context.nestedMessages scope messages) (context'.nestedMessages scope messages)
  | [], _ => rfl
  | nested :: rest, within => by
    rw [Schema.Message.membersOfAll, List.append_subset] at within
    rw [Context.nestedMessages, Context.nestedMessages]
    refine .bind (alike.message scope nested within.1).located ?_
    intro first first' firstAlike
    refine .bind (alike.nestedMessages scope rest within.2) ?_
    intro more more' moreAlike
    simp only [Result.Agree, pure, Except.pure, Message.changeAll, firstAlike, moreAlike]

end

theorem Alike.outline {file : Schema.File}
    (alike : Alike change change' file.members context context') :
    Result.Agree (fun made made' => made.change change = made'.change change')
      (context.outline file) (context'.outline file) := by
  have within : ∀ message ∈ file.messages, message.members ⊆ file.members := by
    intro message member field fieldMember
    rw [Schema.File.members, Schema.Message.membersOfAll_eq_flatMap]
    exact List.mem_append_left _ (List.mem_flatMap.mpr ⟨message, member, fieldMember⟩)
  rw [Context.outline, Context.outline]
  refine .bind (.mapM fun message member =>
    (alike.message [] message (within message member)).located) ?_
  intro messages messages' messagesAlike
  refine .bind (.mapM fun field member => alike.extension (List.mem_append_right _ member)) ?_
  intro extensions extensions' extensionsAlike
  simp only [Result.Agree, pure, Except.pure, Outline.change, Message.changeAll_eq_map,
    Result.map_eq_map_iff.mpr messagesAlike, Result.map_eq_map_iff.mpr extensionsAlike,
    alike.enums]

end ProtoTypings.Declaration.Context

namespace ProtoTypings.Declaration

section

variable {α β : Type} {f g : α → β}

private theorem Field.mapType_congr {field : Field α} (same : f field.type = g field.type) :
    field.mapType f = field.mapType g := by
  rw [mapType, mapType, same]

private theorem Extension.mapType_congr {extension : Extension α}
    (same : f extension.type = g extension.type) : extension.mapType f = extension.mapType g := by
  rw [mapType, mapType, same]

mutual

private theorem Message.mapType_congr :
    ∀ message : Message α, (∀ type ∈ message.types, f type = g type) →
    message.mapType f = message.mapType g
  | { name, declaredName, fields, messages, enums, extensions, comment }, same => by
    simp only [types, List.forall_mem_append, List.forall_mem_map] at same
    obtain ⟨ofFields, ofMessages, ofExtensions⟩ := same
    rw [mapType, mapType, mapTypes_congr messages ofMessages,
      List.map_congr_left fun field member => Field.mapType_congr (ofFields field member),
      List.map_congr_left fun extension member =>
        Extension.mapType_congr (ofExtensions extension member)]

private theorem Message.mapTypes_congr : ∀ messages : List (Message α),
    (∀ type ∈ typesOfAll messages, f type = g type) → mapTypes f messages = mapTypes g messages
  | [], _ => rfl
  | message :: rest, same => by
    simp only [typesOfAll, List.forall_mem_append] at same
    rw [mapTypes, mapTypes, mapType_congr message same.1, mapTypes_congr rest same.2]

end

theorem Outline.mapType_congr {outline : Outline α}
    (same : ∀ type ∈ outline.types, f type = g type) :
    outline.mapType f = outline.mapType g := by
  simp only [types, List.forall_mem_append, List.forall_mem_map] at same
  rw [mapType, mapType, Message.mapTypes_congr outline.messages same.1,
    List.map_congr_left fun extension member => Extension.mapType_congr (same.2 extension member)]

end

section

variable {file : Schema.File} {table table' : SymbolTable} {options options' : Options}

/-- Message declarations depend on the symbols only through the types of the file's members, and on
no options but those for reserved words and comments. -/
theorem MessageFile.ofSchema_congr
    (types : ∀ field ∈ file.members,
      FieldType.ofField table file.path field = FieldType.ofField table' file.path field)
    (reserved : options.reserved = options'.reserved)
    (comments : options.comments = options'.comments) :
    MessageFile.ofSchema file table options = MessageFile.ofSchema file table' options' := by
  have alike : Context.Alike ⟨id, id, id⟩ ⟨id, id, id⟩ file.members
      (Context.ofFile file table options) (Context.ofFile file table' options') :=
    { types := fun field member => Result.agree_iff_map_eq.mpr (congrArg _ (types field member))
      objectName := fun name => by simp only [Context.ofFile, reserved]
      comment := fun text => by simp only [Context.ofFile, Context.comment, comments]
      proto3 := rfl }
  have outlines : (Context.ofFile file table options).outline file =
      (Context.ofFile file table' options').outline file :=
    Result.agree_iff_eq.mp <| alike.outline.mono fun made made' _ same => by
      simpa only [Outline.change_id] using same
  rw [MessageFile.ofSchema_eq_map, MessageFile.ofSchema_eq_map, outlines]

/-- Service declarations depend on the symbols only through the types of the file's methods, and on
no options but those for the runtime module and comments. -/
theorem ServiceFile.ofSchema_congr
    (types : ∀ service ∈ file.services, ∀ method ∈ service.methods,
      Signature.ofSchema table file.path method = Signature.ofSchema table' file.path method)
    (grpcJs : options.grpcJs = options'.grpcJs) (comments : options.comments = options'.comments) :
    ServiceFile.ofSchema file table options = ServiceFile.ofSchema file table' options' := by
  have signatures : file.services.mapM (Service.signatures table file.path options) =
      file.services.mapM (Service.signatures table' file.path options') := by
    refine Result.mapM_congr fun service member => ?_
    have methods := Result.mapM_congr fun method methodMember =>
      congrArg (Fault.located (.method service.name method.name))
        (types service member method methodMember)
    rw [Service.signatures, Service.signatures, methods, comments]
  simp only [ServiceFile.ofSchema_eq_map, signatures, ServiceFile.ofSigned, grpcJs, comments]

end

theorem ServiceFile.map_ofSchema {file : Schema.File} {table table' : SymbolTable}
    {options options' : Options} {α : Type} {f g : ServiceFile → α}
    (agree : Result.Agree (fun services services' =>
        f (ServiceFile.ofSigned file options services) =
          g (ServiceFile.ofSigned file options' services'))
      (file.services.mapM (Service.signatures table file.path options))
      (file.services.mapM (Service.signatures table' file.path options'))) :
    (ServiceFile.ofSchema file table options).map (Option.map f) =
      (ServiceFile.ofSchema file table' options').map (Option.map g) := by
  rw [ServiceFile.ofSchema_eq_map, ServiceFile.ofSchema_eq_map]
  split
  · rfl
  · rw [Result.map_map, Result.map_map]
    exact Result.agree_iff_map_eq.mp (agree.mono fun _ _ _ same => congrArg some same)

end ProtoTypings.Declaration
