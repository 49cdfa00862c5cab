import ProtoTypings.Declaration.Message
import ProtoTypings.Declaration.Service
import ProtoTypings.Proofs.FieldType
import ProtoTypings.Proofs.Imports

set_option autoImplicit false
set_option relaxedAutoImplicit false

/-!
Declarations are made in one pass, and each reference is spelled when it is met, with the imports so
far. As an import never changes its name afterwards, they are the same as if all references had been
collected before the first one is spelled. This second way is given here, in three steps: an outline
with resolved types instead of texts, the imports of its references, and the spelling of its types.
-/

namespace ProtoTypings

namespace Declaration

section

variable {α β : Type}

mutual

/-- The types of a message's fields and extensions in order: fields, then nested messages, then
extensions. -/
def Message.types : Message α → List α
  | { fields, messages, extensions, .. } =>
    fields.map (·.type) ++ (Message.typesOfAll messages ++ extensions.map (·.type))

def Message.typesOfAll : List (Message α) → List α
  | [] => []
  | message :: rest => message.types ++ Message.typesOfAll rest

end

/-- The types in an outline in order: those of its messages, then those of its extensions. -/
def Outline.types (outline : Outline α) : List α :=
  Message.typesOfAll outline.messages ++ outline.extensions.map (·.type)

def Field.mapType (f : α → β) (field : Field α) : Field β :=
  { field with type := f field.type }

def Extension.mapType (f : α → β) (extension : Extension α) : Extension β :=
  { extension with type := f extension.type }

mutual

def Message.mapType (f : α → β) : Message α → Message β
  | { name, declaredName, fields, messages, enums, extensions, comment } =>
    { name
      declaredName
      fields := fields.map (·.mapType f)
      messages := Message.mapTypes f messages
      enums
      extensions := extensions.map (·.mapType f)
      comment }

def Message.mapTypes (f : α → β) : List (Message α) → List (Message β)
  | [] => []
  | message :: rest => message.mapType f :: Message.mapTypes f rest

end

def Outline.mapType (f : α → β) (outline : Outline α) : Outline β where
  messages := Message.mapTypes f outline.messages
  enums := outline.enums
  extensions := outline.extensions.map (·.mapType f)

theorem Message.mapTypes_eq_map (f : α → β) (messages : List (Message α)) :
    mapTypes f messages = messages.map (mapType f) := by
  induction messages with
  | nil => rfl
  | cons message rest ih => rw [mapTypes, ih, List.map_cons]

theorem Message.typesOfAll_eq_flatMap (messages : List (Message α)) :
    typesOfAll messages = messages.flatMap types := by
  induction messages with
  | nil => rfl
  | cons message rest ih => rw [typesOfAll, ih, List.flatMap_cons]

end

namespace Context

def field (context : Context) (field : Schema.Field) : Except Fault (Field FieldType) :=
  match FieldType.ofField context.table context.source field with
  | .error fault => .error fault
  | .ok type => .ok (context.typedField field type)

def extension (context : Context) (field : Schema.Field) : Except Fault (Extension FieldType) :=
  match FieldType.ofField context.table context.source field with
  | .error fault => .error (.within (.extension field.name) fault)
  | .ok type => .ok (context.typedExtension field type)

mutual

def message (context : Context) (scope : Text) :
    Schema.Message → Except Fault (Message FieldType)
  | { name, fields, messages, enums, extensions, comments, .. } => do
    let declaredName := Identifier.qualified scope name
    let fields ← fields.mapM context.field
    let messages ← nestedMessages context declaredName messages
    let extensions ← extensions.mapM context.extension
    return {
      name
      declaredName
      fields
      messages
      enums := enums.map (context.enum declaredName)
      extensions
      comment := context.comment comments }

def nestedMessages (context : Context) (scope : Text) :
    List Schema.Message → Except Fault (List (Message FieldType))
  | [] => return []
  | nested :: rest => do
    let first ← Fault.located (.nestedMessage nested.name) (message context scope nested)
    let more ← nestedMessages context scope rest
    return first :: more

end

def outline (context : Context) (file : Schema.File) : Except Fault (Outline FieldType) := do
  let messages ← file.messages.mapM fun message =>
    Fault.located (.message message.name) (context.message [] message)
  let extensions ← file.extensions.mapM context.extension
  return { messages, enums := file.enums.map (context.enum []), extensions }

end Context

/-- The imports of an outline: the runtime library, then the modules of its references. -/
def Outline.imports (outline : Outline FieldType) (taken : List Text) : Imports :=
  (messageImports taken).addAll (outline.types.filterMap FieldType.reference?)

def MessageFile.ofOutline (file : Schema.File) (outline : Outline FieldType) : MessageFile :=
  { outline.mapType (FieldType.spell (outline.imports (topLevelNames file)).spell) with
    protoFile := file.path
    package := file.package
    imports := (outline.imports (topLevelNames file)).entries }

/-- A method with its request and response resolved. -/
structure Signature where
  method : Schema.Method
  request : Resolution
  response : Resolution

def Signature.references (signature : Signature) : List Resolution :=
  [signature.request, signature.response]

def Signature.ofSchema (table : SymbolTable) (source : Text) (method : Schema.Method) :
    Except Fault Signature := do
  let request ← Fault.located .requestType (table.resolveMessage method.inputType source)
  let response ← Fault.located .responseType (table.resolveMessage method.outputType source)
  return { method, request, response }

def Method.ofSignature (comments : Bool) (spell : Resolution → Text) (service : Text)
    (signature : Signature) : Method :=
  Method.typed comments service signature.method (spell signature.request)
    (spell signature.response)
def Service.signatures (table : SymbolTable) (source : Text) (options : Options)
    (service : Schema.Service) : Except Fault (Service Signature) := do
  let methods ← service.methods.mapM fun method =>
    Fault.located (.method service.name method.name) (Signature.ofSchema table source method)
  return {
    name := service.name
    fullName := Text.trimStart [Text.dot] service.fullName
    methods
    comment := docLines options.comments service.comments }

def Service.references (service : Service Signature) : List Resolution :=
  service.methods.flatMap Signature.references

def Service.spelled (comments : Bool) (spell : Resolution → Text) (service : Service Signature) :
    Service Method where
  name := service.name
  fullName := service.fullName
  methods := service.methods.map (Method.ofSignature comments spell service.fullName)
  comment := service.comment

/-- The imports of services: the gRPC runtime, then the modules of their references. -/
def serviceImports (services : List (Service Signature)) (js : Bool) (taken : List Text) :
    Imports :=
  (runtimeImports js taken).addAll (services.flatMap Service.references)

def ServiceFile.ofSigned (file : Schema.File) (options : Options)
    (services : List (Service Signature)) : ServiceFile :=
  let taken := file.services.flatMap fun service => serviceNames service.name
  let imports := serviceImports services options.grpcJs taken
  { protoFile := file.path
    package := file.package
    grpcModule := grpcRuntime options.grpcJs
    grpcJs := options.grpcJs
    imports := imports.entries
    services := services.map (Service.spelled options.comments imports.spell) }

end Declaration

namespace Imports

private theorem addAll_append (imports : Imports) (targets more : List Resolution) :
    imports.addAll (targets ++ more) = (imports.addAll targets).addAll more :=
  List.foldl_append

private theorem find?_addAll {imports : Imports} {path : Text} {entry : Import}
    (found : imports.find? path = some entry) (targets : List Resolution) :
    (imports.addAll targets).find? path = some entry := by
  induction targets generalizing imports with
  | nil => exact found
  | cons target rest ih => exact ih (find?_add found target)

private theorem Provides.spell_addAll {imports : Imports} {target : Resolution}
    (provided : imports.Provides target) (more : List Resolution) :
    (imports.addAll more).spell target = imports.spell target := by
  rw [spell, spell, inScope_addAll]
  rcases provided with scope | ⟨entry, found⟩
  · rw [if_pos scope, if_pos scope]
  · rw [found, find?_addAll found]

end Imports

namespace Formatter

private theorem run_recording {α : Type} (record : Imports → Except Fault α × Imports)
    (imports : Imports) : (recording record).run imports =
      match record imports with
      | (.error fault, _) => .error fault
      | (.ok a, imports) => .ok (a, imports) := rfl

/-- Formatting that follows a plan: it fails as the plan does, or records the references of what is
planned, in order, and gives its spelling, which depends on nothing but how they are spelled. -/
structure Follows {α β : Type} (references : α → List Resolution)
    (spelled : (Resolution → Text) → α → β) (format : Formatter β) (plan : Except Fault α) :
    Prop where
  run : ∀ imports, format.run imports = plan.map fun planned =>
    (spelled (imports.addAll (references planned)).spell planned,
      imports.addAll (references planned))
  settled : ∀ planned, plan = .ok planned → ∀ spell spell' : Resolution → Text,
    (∀ target ∈ references planned, spell target = spell' target) →
    spelled spell planned = spelled spell' planned

namespace Follows

variable {α β γ δ μ ν : Type} {references : α → List Resolution}
  {spelled : (Resolution → Text) → α → β} {format : Formatter β} {plan : Except Fault α}
  {planned : α}

private theorem located (follows : Follows references spelled format plan) (place : Place) :
    Follows references spelled (Formatter.located place format) (Fault.located place plan) where
  run imports := by
    change Fault.located place (format.run imports) = _
    rw [follows.run]
    cases plan <;> rfl
  settled planned made := follows.settled planned (Result.located_eq_ok.mp made)

private theorem pure_nil {made : β} (spells : ∀ spell, spelled spell planned = made)
    (refers : references planned = []) :
    Follows references spelled (pure made) (pure planned) where
  run imports := by
    change Except.ok (made, imports) = Except.ok _
    dsimp only
    rw [refers, spells]
    rfl
  settled _ same spell spell' _ := by
    obtain rfl := Except.ok.inj same
    rw [spells, spells]

private theorem bind {references' : γ → List Resolution} {spelled' : (Resolution → Text) → γ → δ}
    {format' : Formatter δ} {plan' : Except Fault γ} {make : α → γ → μ} {made : β → δ → ν}
    {refs : μ → List Resolution} {spells : (Resolution → Text) → μ → ν}
    (first : Follows references spelled format plan)
    (second : Follows references' spelled' format' plan')
    (refs_make : ∀ planned planned',
      refs (make planned planned') = references planned ++ references' planned')
    (spells_make : ∀ spell planned planned', spells spell (make planned planned') =
      made (spelled spell planned) (spelled' spell planned')) :
    Follows refs spells (do let text ← format; let text' ← format'; return made text text')
      (do let planned ← plan; let planned' ← plan'; return make planned planned') where
  run imports := by
    rw [StateT.run_bind, first.run]
    cases plan with
    | error fault => rfl
    | ok planned =>
      change (do let (text', imports) ← format'.run _; return (made _ text', imports)) = _
      rw [second.run]
      cases plan' with
      | error fault => rfl
      | ok planned' =>
        change Except.ok (made _ _, _) = Except.ok (spells _ (make planned planned'), _)
        dsimp only
        rw [refs_make, spells_make, Imports.addAll_append]
        -- the first part was spelled before the second one was met
        rw [first.settled planned rfl _ _ fun target referred =>
          ((imports.provides_addAll referred).spell_addAll _).symm]
  settled := by
    intro larger larger_made spell spell' same
    obtain ⟨planned, plan_eq, rest⟩ := Result.bind_eq_ok.mp larger_made
    obtain ⟨planned', plan'_eq, rest⟩ := Result.bind_eq_ok.mp rest
    obtain rfl := Result.pure_eq_ok.mp rest
    rw [refs_make, List.forall_mem_append] at same
    rw [spells_make, spells_make, first.settled planned plan_eq spell spell' same.1,
      second.settled planned' plan'_eq spell spell' same.2]

theorem bind₃ {κ ξ : Type} {references' : γ → List Resolution}
    {spelled' : (Resolution → Text) → γ → δ} {format' : Formatter δ} {plan' : Except Fault γ}
    {references'' : κ → List Resolution} {spelled'' : (Resolution → Text) → κ → ξ}
    {format'' : Formatter ξ} {plan'' : Except Fault κ} {make : α → γ → κ → μ} {made : β → δ → ξ → ν}
    {refs : μ → List Resolution} {spells : (Resolution → Text) → μ → ν}
    (first : Follows references spelled format plan)
    (second : Follows references' spelled' format' plan')
    (third : Follows references'' spelled'' format'' plan'')
    (refs_make : ∀ planned planned' planned'', refs (make planned planned' planned'') =
      references planned ++ (references' planned' ++ references'' planned''))
    (spells_make : ∀ spell planned planned' planned'', spells spell (make planned planned' planned'') =
      made (spelled spell planned) (spelled' spell planned') (spelled'' spell planned'')) :
    Follows refs spells
      (do let text ← format; let text' ← format'; let text'' ← format''
          return made text text' text'')
      (do let planned ← plan; let planned' ← plan'; let planned'' ← plan''
          return make planned planned' planned'') := by
  have pair : Follows (fun pair : γ × κ => references' pair.1 ++ references'' pair.2)
      (fun spell pair => (spelled' spell pair.1, spelled'' spell pair.2))
      (do let text' ← format'; let text'' ← format''; return (text', text''))
      (do let planned' ← plan'; let planned'' ← plan''; return (planned', planned'')) :=
    second.bind third (fun _ _ => rfl) fun _ _ _ => rfl
  have all : Follows refs spells
      (do let text ← format
          let pair ← (do let text' ← format'; let text'' ← format''; return (text', text''))
          return made text pair.1 pair.2)
      (do let planned ← plan
          let pair ← (do let planned' ← plan'; let planned'' ← plan''; return (planned', planned''))
          return make planned pair.1 pair.2) :=
    first.bind pair (fun _ _ => refs_make _ _ _) fun _ _ _ => spells_make _ _ _ _
  simpa only [bind_assoc, pure_bind] using all

private theorem map {make : α → μ} {made : β → ν} {refs : μ → List Resolution}
    {spells : (Resolution → Text) → μ → ν} (follows : Follows references spelled format plan)
    (refs_make : ∀ planned, refs (make planned) = references planned)
    (spells_make : ∀ spell planned, spells spell (make planned) = made (spelled spell planned)) :
    Follows refs spells (do let text ← format; return made text)
      (do let planned ← plan; return make planned) where
  run imports := by
    rw [StateT.run_bind, follows.run]
    cases plan with
    | error fault => rfl
    | ok planned =>
      change Except.ok (made _, _) = Except.ok (spells _ (make planned), _)
      dsimp only
      rw [refs_make, spells_make]
  settled := by
    intro larger larger_made spell spell' same
    obtain ⟨planned, plan_eq, rest⟩ := Result.bind_eq_ok.mp larger_made
    obtain rfl := Result.pure_eq_ok.mp rest
    rw [refs_make] at same
    rw [spells_make, spells_make, follows.settled planned plan_eq spell spell' same]

theorem mapM {σ : Type} {xs : List σ} {format : σ → Formatter β} {plan : σ → Except Fault α}
    (each : ∀ x ∈ xs, Follows references spelled (format x) (plan x)) :
    Follows (List.flatMap references) (fun spell => List.map (spelled spell)) (xs.mapM format)
      (xs.mapM plan) := by
  induction xs with
  | nil => exact pure_nil (fun _ => rfl) rfl
  | cons x rest ih =>
    rw [List.mapM_cons, List.mapM_cons]
    exact bind (each x List.mem_cons_self)
      (ih fun other member => each other (List.mem_cons_of_mem x member))
      (fun _ _ => List.flatMap_cons) fun _ _ _ => List.map_cons

end Follows

end Formatter

namespace Declaration

open Formatter (Follows)

namespace Context

variable (context : Context)

private theorem typeText_follows (field : Schema.Field) :
    Follows (fun type => type.reference?.toList) (fun spell type => type.spell spell)
      (context.typeText field) (FieldType.ofField context.table context.source field) where
  run imports := by
    rw [typeText, Formatter.run_recording, Imports.mapField, Imports.recordField_eq]
    cases FieldType.ofField context.table context.source field <;> rfl
  settled type typed spell spell' same := FieldType.spell_congr typed fun target refers =>
    same target (Option.mem_toList.mpr refers)

private theorem declareField_follows (field : Schema.Field) :
    Follows (fun made => made.type.reference?.toList)
      (fun spell made => made.mapType (FieldType.spell spell))
      (context.declareField field) (context.field field) := by
  have plan : context.field field = do
      let type ← FieldType.ofField context.table context.source field
      return context.typedField field type := by
    rw [Context.field]
    cases FieldType.ofField context.table context.source field <;> rfl
  rw [plan]
  exact (context.typeText_follows field).map (fun _ => rfl) fun _ _ => rfl

private theorem declareExtension_follows (field : Schema.Field) :
    Follows (fun made => made.type.reference?.toList)
      (fun spell made => made.mapType (FieldType.spell spell))
      (context.declareExtension field) (context.extension field) := by
  have plan : context.extension field = do
      let type ← Fault.located (.extension field.name)
        (FieldType.ofField context.table context.source field)
      return context.typedExtension field type := by
    rw [Context.extension]
    cases FieldType.ofField context.table context.source field <;> rfl
  rw [plan]
  exact ((context.typeText_follows field).located _).map (fun _ => rfl) fun _ _ => rfl

mutual

private theorem declareMessage_follows (scope : Text) : ∀ message : Schema.Message,
    Follows (fun made => made.types.filterMap FieldType.reference?)
      (fun spell made => made.mapType (FieldType.spell spell))
      (context.declareMessage scope message) (context.message scope message)
  | { fields, messages, extensions, .. } => by
    rw [declareMessage, Context.message]
    refine Follows.bind₃ (.mapM fun field _ => context.declareField_follows field)
      (declareNested_follows _ messages) (.mapM fun field _ => context.declareExtension_follows field)
      (fun _ _ _ => ?_) fun _ _ _ _ => rfl
    simp only [Message.types, List.filterMap_eq_flatMap_toList, List.flatMap_append,
      List.flatMap_map]

private theorem declareNested_follows (scope : Text) : ∀ messages : List Schema.Message,
    Follows (fun made => (Message.typesOfAll made).filterMap FieldType.reference?)
      (fun spell made => Message.mapTypes (FieldType.spell spell) made)
      (context.declareNested scope messages) (context.nestedMessages scope messages)
  | [] => by
    rw [declareNested, nestedMessages]
    exact .pure_nil (fun _ => rfl) rfl
  | nested :: rest => by
    rw [declareNested, nestedMessages]
    refine .bind ((declareMessage_follows scope nested).located _) (declareNested_follows scope rest)
      (fun _ _ => ?_) fun _ _ _ => rfl
    rw [Message.typesOfAll, List.filterMap_append]

end

private theorem declareFile_follows (file : Schema.File) :
    Follows (fun made => made.types.filterMap FieldType.reference?)
      (fun spell made => made.mapType (FieldType.spell spell))
      (context.declareFile file) (context.outline file) := by
  rw [declareFile, outline]
  refine .bind (.mapM fun message _ => (context.declareMessage_follows [] message).located _)
    (.mapM fun field _ => context.declareExtension_follows field) (fun _ _ => ?_) fun _ _ _ => ?_
  · simp only [Outline.types, List.filterMap_eq_flatMap_toList, List.flatMap_append,
      List.flatMap_map, Message.typesOfAll_eq_flatMap, List.flatMap_assoc]
  · simp only [Outline.mapType, Message.mapTypes_eq_map]

end Context

/-- Making the declarations of messages in one pass is collecting all references first. -/
theorem MessageFile.ofSchema_eq_map (file : Schema.File) (table : SymbolTable) (options : Options) :
    MessageFile.ofSchema file table options =
      ((Context.ofFile file table options).outline file).map (MessageFile.ofOutline file) := by
  rw [MessageFile.ofSchema, ((Context.ofFile file table options).declareFile_follows file).run]
  cases (Context.ofFile file table options).outline file <;> rfl

private theorem Method.declare_follows (table : SymbolTable) (source : Text) (options : Options)
    (service : Text) (method : Schema.Method) :
    Follows Signature.references
      (fun spell signature => Method.ofSignature options.comments spell service signature)
      (Method.declare table source options service method)
      (Signature.ofSchema table source method) := by
  have resolved (name : Text) : Follows (fun target => [target]) (fun spell target => spell target)
      (.recording (·.mapMessage table source name)) (table.resolveMessage name source) :=
    { run := fun imports => by
        rw [Formatter.run_recording, Imports.mapMessage]
        cases table.resolveMessage name source <;> rfl
      settled := fun target _ _ _ same => same target List.mem_cons_self }
  exact .bind ((resolved method.inputType).located _) ((resolved method.outputType).located _)
    (fun _ _ => rfl) fun _ _ _ => rfl

private theorem Service.declare_follows (table : SymbolTable) (source : Text) (options : Options)
    (service : Schema.Service) :
    Follows Service.references
      (fun spell signed => Service.spelled options.comments spell signed)
      (Service.declare table source options service)
      (Service.signatures table source options service) :=
  .map (.mapM fun method _ => (Method.declare_follows table source options _ method).located _)
    (fun _ => rfl) fun _ _ => rfl

/-- Making the declarations of services in one pass is collecting all references first. -/
theorem ServiceFile.ofSchema_eq_map (file : Schema.File) (table : SymbolTable) (options : Options) :
    ServiceFile.ofSchema file table options = if file.services.isEmpty then .ok none
      else (file.services.mapM (Service.signatures table file.path options)).map fun services =>
        some (ServiceFile.ofSigned file options services) := by
  have follows := Follows.mapM fun service (_ : service ∈ file.services) =>
    Service.declare_follows table file.path options service
  rw [ServiceFile.ofSchema]
  split
  · rfl
  · dsimp only
    rw [follows.run]
    cases file.services.mapM (Service.signatures table file.path options) <;> rfl

end Declaration

end ProtoTypings
