import ProtoTypings.Proofs.Collected
import ProtoTypings.Proofs.SharedOneof
import ProtoTypings.Proofs.Wording
import ProtoTypings.Request

set_option autoImplicit false
set_option relaxedAutoImplicit false

/-!
What the stages of a run can fail with, stage by stage: the conversion of descriptors, the reading of
a request and of its options, and the search for the types of declarations. Of a failure inside a
schema it is also said which texts of the schema its message shows as they are.
-/

namespace ProtoTypings

open Result (FailsOnly)

namespace Fault

/-- Failures to find the type of an element, in the places where they were met. The texts that are
shown as they are have a certain property. -/
inductive Untypable (bare : Text → Prop) : Fault → Prop where
  | unresolved (name source : Text) : Untypable bare (.unresolved name source)
  | unsupported (field : Text) (kind : Schema.FieldKind) {reason : Unsupported}
      (shown : ∀ text ∈ reason.bareTexts, bare text) :
      Untypable bare (.unsupported field kind reason)
  | within {place : Place} (shown : ∀ text ∈ place.bareTexts, bare text) {inner : Fault}
      (met : Untypable bare inner) : Untypable bare (.within place inner)

/-- Failures to convert a descriptor, in the places where they were met. The texts that are shown as
they are have a certain property. -/
inductive Inconvertible (bare : Text → Prop) : Fault → Prop where
  | unnamedFile : Inconvertible bare .unnamedFile
  | oneofIndex (index : Int) (declared : Nat) : Inconvertible bare (.oneofIndex index declared)
  | incompleteMapEntry (name : Text) : Inconvertible bare (.incompleteMapEntry name)
  | within {place : Place} (shown : ∀ text ∈ place.bareTexts, bare text) {inner : Fault}
      (met : Inconvertible bare inner) : Inconvertible bare (.within place inner)

/-- Failures of a malformed request that are no call for help. Besides the program's own words, the
texts that are shown as they are have a certain property. -/
structure Malformed (bare : Text → Prop) (fault : Fault) : Prop where
  kind : fault.kind = .malformedRequest
  noHelp : fault.asksForHelp = false
  shown : ∀ text ∈ fault.bareTexts, text.OneLine ∨ bare text

section

variable {bare : Text → Prop} {fault : Fault}

theorem Untypable.kind (untypable : fault.Untypable bare) :
    fault.kind = .unresolvedReference ∨ fault.kind = .unsupportedFieldKind := by
  induction untypable with
  | unresolved name source => exact Or.inl rfl
  | unsupported field kind shown => exact Or.inr rfl
  | within shown met ih => exact ih

theorem Untypable.noHelp (untypable : fault.Untypable bare) : fault.asksForHelp = false := by
  induction untypable with
  | unresolved name source => rfl
  | unsupported field kind shown => rfl
  | within shown met ih => exact ih

theorem Untypable.bareTexts (untypable : fault.Untypable bare) :
    ∀ text ∈ fault.bareTexts, bare text := by
  induction untypable with
  | unresolved name source => exact List.forall_mem_nil _
  | unsupported field kind shown => exact shown
  | within shown met ih => exact List.forall_mem_append.mpr ⟨shown, ih⟩

private theorem Inconvertible.noHelp (inconvertible : fault.Inconvertible bare) :
    fault.asksForHelp = false := by
  induction inconvertible with
  | unnamedFile => rfl
  | oneofIndex index declared => rfl
  | incompleteMapEntry name => rfl
  | within shown met ih => exact ih

private theorem Inconvertible.bareTexts (inconvertible : fault.Inconvertible bare) :
    ∀ text ∈ fault.bareTexts, bare text := by
  induction inconvertible with
  | unnamedFile => exact List.forall_mem_nil _
  | oneofIndex index declared => exact List.forall_mem_nil _
  | incompleteMapEntry name => exact List.forall_mem_nil _
  | within shown met ih => exact List.forall_mem_append.mpr ⟨shown, ih⟩

end

/-- Failures that are a call for help only if they are nothing else. -/
def PlainHelp (fault : Fault) : Prop := fault = .helpRequested ∨ fault.asksForHelp = false

private theorem Malformed.because {bare : Text → Prop} {inner : Fault}
    (noHelp : inner.asksForHelp = false)
    (shown : ∀ text ∈ inner.bareTexts, text.OneLine ∨ bare text) {reason : Text}
    (words : reason.OneLine) : Malformed bare (.malformedBy reason inner) :=
  ⟨rfl, noHelp, List.forall_mem_cons.mpr ⟨.inl words, shown⟩⟩

section

variable {bare : Text → Prop} {α : Type} {place : Place} {result : Except Fault α}

theorem untypable_located (shown : ∀ text ∈ place.bareTexts, bare text)
    (fails : FailsOnly (Untypable bare) result) :
    FailsOnly (Untypable bare) (located place result) :=
  fails.located fun _ => .within shown

private theorem inconvertible_located (shown : ∀ text ∈ place.bareTexts, bare text)
    (fails : FailsOnly (Inconvertible bare) result) :
    FailsOnly (Inconvertible bare) (located place result) :=
  fails.located fun _ => .within shown

end

end Fault

section

variable {bare : Text → Prop} (table : SymbolTable) (source : Text)

private theorem SymbolTable.resolve_fails (name : Text) :
    FailsOnly (Fault.Untypable bare) (table.resolve name source) := by
  rw [resolve]
  split
  · exact Result.failsOnly_error.mpr (.unresolved name source)
  · exact Result.failsOnly_ok _

private theorem SymbolTable.resolveMessage_fails (name : Text) :
    FailsOnly (Fault.Untypable bare) (table.resolveMessage name source) := by
  rw [resolveMessage]
  split
  · rename_i fault failed
    exact Result.failsOnly_error.mpr (table.resolve_fails source name fault failed)
  · split
    · exact Result.failsOnly_ok _
    · exact Result.failsOnly_error.mpr (.unsupported _ _ (List.forall_mem_nil _))

private theorem ElementType.ofField_fails (owner : Text) {field : Schema.Field}
    (shown : bare field.typeName) :
    FailsOnly (Fault.Untypable bare) (ofField table source owner field) := by
  have resolved : FailsOnly (Fault.Untypable bare) (table.resolve field.typeName source) :=
    table.resolve_fails source field.typeName
  have named : ∀ text ∈ [field.typeName], bare text := List.forall_mem_singleton.mpr shown
  rw [ofField]
  cases field.kind with
  | scalar scalar => exact Result.failsOnly_ok _
  | enum | message | group =>
    dsimp only
    split
    · rename_i fault failed
      exact Result.failsOnly_error.mpr (.within (List.forall_mem_nil _) (resolved fault failed))
    · split
      · exact Result.failsOnly_ok _
      · exact Result.failsOnly_error.mpr (.unsupported _ _ named)
  | invalid | map | unknown =>
    exact Result.failsOnly_error.mpr (.unsupported _ _ (List.forall_mem_nil _))

private theorem FieldType.ofMap_fails {field : Schema.Field}
    (shown : ∀ text ∈ field.bareTexts, bare text) :
    FailsOnly (Fault.Untypable bare) (ofMap table source field) := by
  have refused (kind : Schema.FieldKind) {reason : Unsupported} (fixed : reason.bareTexts = []) :
      FailsOnly (Fault.Untypable bare)
        (.error (.unsupported field.name kind reason) : Except Fault FieldType) :=
    Result.failsOnly_error.mpr (.unsupported _ _ (by simp [fixed]))
  rw [ofMap]
  split
  · rename_i key value entry
    simp only [Schema.Field.bareTexts, entry, List.forall_mem_cons, Option.toList_some,
      List.singleton_append, List.map_cons] at shown
    split
    · exact refused _ rfl
    · split
      · exact refused _ rfl
      · split
        · rename_i fault failed
          exact Result.failsOnly_error.mpr
            (ElementType.ofField_fails table source _ shown.2.1 fault failed)
        · split
          · rename_i fault failed
            exact Result.failsOnly_error.mpr
              (ElementType.ofField_fails table source _ shown.2.2.1 fault failed)
          · exact Result.failsOnly_ok _
  · exact refused _ rfl

private theorem FieldType.ofField_fails {field : Schema.Field}
    (shown : ∀ text ∈ field.bareTexts, bare text) :
    FailsOnly (Fault.Untypable bare) (ofField table source field) := by
  rw [ofField]
  split
  · exact ofMap_fails table source shown
  · split
    · rename_i fault failed
      exact Result.failsOnly_error.mpr
        (ElementType.ofField_fails table source _ (shown _ List.mem_cons_self) fault failed)
    · exact Result.failsOnly_ok _

end

namespace Declaration

section

variable {bare : Text → Prop} (context : Context)

private theorem Context.field_fails {field : Schema.Field}
    (shown : ∀ text ∈ field.bareTexts, bare text) :
    FailsOnly (Fault.Untypable bare) (context.field field) := by
  rw [Context.field]
  split
  · rename_i fault failed
    exact Result.failsOnly_error.mpr (FieldType.ofField_fails _ _ shown fault failed)
  · exact Result.failsOnly_ok _

private theorem Context.extension_fails {field : Schema.Field}
    (shown : ∀ text ∈ field.extensionTexts, bare text) :
    FailsOnly (Fault.Untypable bare) (context.extension field) := by
  obtain ⟨named, shown⟩ := List.forall_mem_cons.mp shown
  have place : ∀ text ∈ (Place.extension field.name).bareTexts, bare text :=
    List.forall_mem_singleton.mpr named
  rw [Context.extension]
  split
  · rename_i fault failed
    exact Result.failsOnly_error.mpr
      (.within place (FieldType.ofField_fails _ _ shown fault failed))
  · exact Result.failsOnly_ok _

mutual

private theorem Context.message_fails (scope : Text) :
    ∀ message : Schema.Message, (∀ text ∈ message.bareTexts, bare text) →
      FailsOnly (Fault.Untypable bare) (context.message scope message)
  | { fields, messages, extensions, .. }, shown => by
    rw [Schema.Message.bareTexts, List.forall_mem_append, List.forall_mem_append,
      List.forall_mem_flatMap, List.forall_mem_flatMap] at shown
    obtain ⟨fieldsShown, messagesShown, extensionsShown⟩ := shown
    rw [Context.message]
    refine .bind (.mapM fun field member => context.field_fails (fieldsShown field member))
      fun _ _ => ?_
    refine .bind (Context.nestedMessages_fails _ messages messagesShown) fun _ _ => ?_
    refine .bind (.mapM fun field member =>
      context.extension_fails (extensionsShown field member)) fun _ _ => ?_
    exact Result.failsOnly_pure _

private theorem Context.nestedMessages_fails (scope : Text) :
    ∀ messages : List Schema.Message,
      (∀ text ∈ Schema.Message.bareTextsOfAll messages, bare text) →
      FailsOnly (Fault.Untypable bare) (context.nestedMessages scope messages)
  | [], _ => Result.failsOnly_pure _
  | message :: rest, shown => by
    rw [Schema.Message.bareTextsOfAll, List.forall_mem_cons, List.forall_mem_append] at shown
    obtain ⟨named, messageShown, restShown⟩ := shown
    rw [Context.nestedMessages]
    refine .bind (Fault.untypable_located (List.forall_mem_singleton.mpr named)
      (Context.message_fails scope message messageShown)) fun _ _ => ?_
    refine .bind (Context.nestedMessages_fails scope rest restShown) fun _ _ => ?_
    exact Result.failsOnly_pure _

end

private theorem Context.outline_fails {file : Schema.File}
    (shown : ∀ text ∈ file.bareTexts, bare text) :
    FailsOnly (Fault.Untypable bare) (context.outline file) := by
  rw [Schema.File.bareTexts, List.forall_mem_append, List.forall_mem_append,
    Schema.Message.forall_bareTextsOfAll, List.forall_mem_flatMap] at shown
  obtain ⟨messagesShown, extensionsShown, -⟩ := shown
  rw [Context.outline]
  refine .bind (.mapM fun message member => ?_) fun _ _ => ?_
  · obtain ⟨named, messageShown⟩ := messagesShown message member
    exact Fault.untypable_located (List.forall_mem_singleton.mpr named)
      (context.message_fails [] message messageShown)
  · refine .bind (.mapM fun field member =>
      context.extension_fails (extensionsShown field member)) fun _ _ => ?_
    exact Result.failsOnly_pure _

end

variable {bare : Text → Prop} {file : Schema.File} (table : SymbolTable) (options : Options)

theorem MessageFile.ofSchema_fails (shown : ∀ text ∈ file.bareTexts, bare text) :
    FailsOnly (Fault.Untypable bare) (MessageFile.ofSchema file table options) := by
  rw [MessageFile.ofSchema_eq_map]
  exact (Context.outline_fails _ shown).map

private theorem Signature.ofSchema_fails (source : Text) (method : Schema.Method) :
    FailsOnly (Fault.Untypable bare) (Signature.ofSchema table source method) := by
  have resolved (place : Place) (fixed : place.bareTexts = []) (name : Text) :
      FailsOnly (Fault.Untypable bare) (Fault.located place (table.resolveMessage name source)) :=
    Fault.untypable_located (by simp [fixed]) (table.resolveMessage_fails source name)
  rw [Signature.ofSchema]
  refine .bind (resolved .requestType rfl _) fun _ _ => ?_
  refine .bind (resolved .responseType rfl _) fun _ _ => ?_
  exact Result.failsOnly_pure _

private theorem Service.signatures_fails (source : Text) {service : Schema.Service}
    (shown : ∀ text ∈ service.bareTexts, bare text) :
    FailsOnly (Fault.Untypable bare) (Service.signatures table source options service) := by
  rw [Service.signatures]
  refine .bind (.mapM fun method member => ?_) fun _ _ => Result.failsOnly_pure _
  exact Fault.untypable_located (List.forall_mem_flatMap.mp shown method member)
    (Signature.ofSchema_fails table source method)

theorem ServiceFile.ofSchema_fails (shown : ∀ text ∈ file.bareTexts, bare text) :
    FailsOnly (Fault.Untypable bare) (ServiceFile.ofSchema file table options) := by
  rw [Schema.File.bareTexts, List.forall_mem_append, List.forall_mem_append] at shown
  have servicesShown := List.forall_mem_flatMap.mp shown.2.2
  rw [ServiceFile.ofSchema_eq_map]
  split
  · exact Result.failsOnly_ok _
  · refine .map (.mapM fun service member => ?_)
    exact Service.signatures_fails table options file.path (servicesShown service member)

end Declaration

namespace Schema

section

variable {bare : Text → Prop}

private theorem Field.plain_fails (oneofs : List Oneof) (comments : Text) (raw : Descriptor.Field) :
    FailsOnly (Fault.Inconvertible bare) (Field.plain oneofs comments raw) := by
  rw [Field.plain]
  split
  · rename_i fault failed
    unfold oneofOf at failed
    split at failed
    · simp at failed
    · split at failed
      · simp at failed
      · obtain rfl := Except.error.inj failed
        exact Result.failsOnly_error.mpr (.oneofIndex _ _)
  · exact Result.failsOnly_ok _

private theorem MapEntry.ofDescriptor_fails (entry : Descriptor.Message) :
    FailsOnly (Fault.Inconvertible bare) (MapEntry.ofDescriptor entry) := by
  rw [MapEntry.ofDescriptor]
  split
  · rename_i fault failed
    obtain ⟨raw, -, rawFailed⟩ := Result.mapM_eq_error failed
    exact Result.failsOnly_error.mpr (Field.plain_fails [] [] raw fault rawFailed)
  · dsimp only
    split
    · exact Result.failsOnly_ok _
    · exact Result.failsOnly_error.mpr (.incompleteMapEntry _)

private theorem Field.ofDescriptor_fails (oneofs : List Oneof)
    (findEntry : Text → Option Descriptor.Message) (comments : Text) (raw : Descriptor.Field) :
    FailsOnly (Fault.Inconvertible bare) (Field.ofDescriptor oneofs findEntry comments raw) := by
  rw [Field.ofDescriptor]
  split
  · rename_i fault failed
    exact Result.failsOnly_error.mpr (Field.plain_fails _ _ raw fault failed)
  · split
    · split
      · exact Result.failsOnly_ok _
      · rename_i entry _
        split
        · rename_i fault failed
          exact Result.failsOnly_error.mpr (MapEntry.ofDescriptor_fails entry fault failed)
        · exact Result.failsOnly_ok _
    · exact Result.failsOnly_ok _

private theorem extensionsOf_fails (locations : List Descriptor.Location) (path : List Int)
    (list : Nat) (raws : List Descriptor.Field) :
    FailsOnly (Fault.Inconvertible bare) (extensionsOf locations path list raws) :=
  .mapM fun _ _ => Fault.inconvertible_located (List.forall_mem_nil _) (Field.plain_fails _ _ _)

private theorem oneofsAndFields_fails (locations : List Descriptor.Location) (path : List Int)
    (names : List Text) (findEntry : Text → Option Descriptor.Message)
    (raws : List Descriptor.Field) :
    FailsOnly (Fault.Inconvertible bare)
      (oneofsAndFields locations path names findEntry raws) := by
  rw [oneofsAndFields_eq]
  refine .map (.mapM fun _ _ => ?_)
  exact Fault.inconvertible_located (List.forall_mem_nil _) (Field.ofDescriptor_fails _ _ _ _)

mutual

private theorem Message.ofDescriptor_fails (locations : List Descriptor.Location) (scope : Text)
    (path : List Int) : ∀ raw : Descriptor.Message, (∀ text ∈ raw.bareTexts scope, bare text) →
      FailsOnly (Fault.Inconvertible bare) (Message.ofDescriptor locations scope path raw)
  | { name, nested, .. }, shown => by
    rw [Descriptor.Message.bareTexts, List.forall_mem_cons, List.forall_mem_cons,
      List.forall_mem_append, List.forall_mem_append] at shown
    obtain ⟨-, named, -, nestedShown, -⟩ := shown
    have place : ∀ text ∈ [scope ++ Text.dot :: name], bare text :=
      List.forall_mem_singleton.mpr named
    rw [Message.ofDescriptor]
    refine .bind (Fault.inconvertible_located place (oneofsAndFields_fails _ _ _ _ _)) fun _ _ => ?_
    refine .bind (nestedOf_fails locations _ path 0 nested nestedShown) fun _ _ => ?_
    refine .bind (Fault.inconvertible_located place (extensionsOf_fails _ _ _ _)) fun _ _ => ?_
    exact Result.failsOnly_pure _

private theorem nestedOf_fails (locations : List Descriptor.Location) (fullName : Text)
    (path : List Int) (index : Nat) : ∀ raws : List Descriptor.Message,
      (∀ text ∈ Descriptor.Message.bareTextsOfAll fullName raws, bare text) →
      FailsOnly (Fault.Inconvertible bare) (nestedOf locations fullName path index raws)
  | [], _ => Result.failsOnly_pure _
  | raw :: rest, shown => by
    rw [Descriptor.Message.bareTextsOfAll, List.forall_mem_append] at shown
    obtain ⟨rawShown, restShown⟩ := shown
    rw [nestedOf]
    split
    · exact nestedOf_fails locations fullName path (index + 1) rest restShown
    · refine .bind (Message.ofDescriptor_fails locations fullName _ raw rawShown) fun _ _ => ?_
      refine .bind (nestedOf_fails locations fullName path (index + 1) rest restShown)
        fun _ _ => ?_
      exact Result.failsOnly_pure _

end

private theorem File.ofDescriptor_fails {raw : Descriptor.File}
    (shown : ∀ text ∈ raw.bareTexts, bare text) :
    FailsOnly (Fault.Inconvertible bare) (File.ofDescriptor raw) := by
  rw [Descriptor.File.bareTexts, List.forall_mem_append,
    Descriptor.Message.bareTextsOfAll_eq_flatMap, List.forall_mem_flatMap] at shown
  rw [File.ofDescriptor]
  split
  · exact .bind (Result.failsOnly_throw.mpr .unnamedFile) fun _ impossible => nomatch impossible
  · refine .bind (Fault.inconvertible_located (List.forall_mem_nil _) (.mapM fun indexed member =>
      Message.ofDescriptor_fails _ _ _ _
        (shown.1 indexed.1 (List.fst_mem_of_mem_zipIdx member)))) fun _ _ => ?_
    refine .bind (Fault.inconvertible_located (List.forall_mem_nil _)
      (extensionsOf_fails _ _ _ _)) fun _ _ => ?_
    exact Result.failsOnly_pure _

end

end Schema

namespace Wire

private theorem RecordKind.oneLine_slots {kind : RecordKind} {number : Nat} {name : String}
    (member : (number, .requiredText name) ∈ kind.slots ∨
      (number, .requiredNumber name) ∈ kind.slots) : Text.OneLine (name : Text) := by
  cases kind
  case namePart =>
    simp only [slots, List.mem_cons, Prod.mk.injEq, Slot.requiredText.injEq,
      Slot.requiredNumber.injEq, reduceCtorEq, and_false, false_or, or_false,
      List.not_mem_nil] at member
    rcases member with ⟨-, rfl⟩ | ⟨-, rfl⟩
    · decide
    · decide
  all_goals simp [slots] at member

private theorem oneLine_of_firstNotSet? {depth : Nat} {kind : RecordKind} {s name : Text}
    (found : firstNotSet? depth kind s = some name) : name.OneLine := by
  induction depth generalizing kind s with
  | zero => cases found
  | succ depth ih =>
    obtain ⟨⟨number, slot⟩, member, found⟩ := List.exists_of_findSome?_eq_some found
    cases slot with
    | numbers => cases found
    | record nested =>
      obtain ⟨content, -, inside⟩ := List.exists_of_findSome?_eq_some found
      exact ih inside
    | requiredText required =>
      dsimp only at found
      split at found
      · obtain rfl := Option.some.inj found
        exact RecordKind.oneLine_slots (.inl member)
      · cases found
    | requiredNumber required =>
      dsimp only at found
      split at found
      · obtain rfl := Option.some.inj found
        exact RecordKind.oneLine_slots (.inr member)
      · cases found

private theorem checkFields_fails {P : Flaw → Prop} {check : Field → Except Flaw Unit}
    (each : ∀ field, FailsOnly P (check field)) (fields : List Field) :
    FailsOnly P (checkFields check fields) := by
  induction fields with
  | nil => exact Result.failsOnly_ok _
  | cons field rest ih =>
    rw [checkFields]
    split
    · exact ih
    · rename_i flaw failed
      exact Result.failsOnly_error.mpr (each field flaw failed)

private theorem checkForm_fails (depth : Nat) (kind : RecordKind) (s : Text) :
    FailsOnly (fun flaw => flaw.message.OneLine) (checkForm depth kind s) := by
  have malformed : (Flaw.message .malformed).OneLine := by decide
  induction depth generalizing kind s with
  | zero => exact Result.failsOnly_error.mpr (by decide)
  | succ depth ih =>
    have each (field : Field) : FailsOnly (fun flaw => flaw.message.OneLine)
        (checkField (checkForm depth) kind field) := by
      unfold checkField
      split
      · exact ih _ _
      · split
        · exact Result.failsOnly_ok _
        · exact Result.failsOnly_error.mpr malformed
      · exact Result.failsOnly_ok _
    rw [checkForm]
    split
    · split
      · exact Result.failsOnly_ok _
      · exact Result.failsOnly_error.mpr malformed
    · rename_i flaw failed
      exact Result.failsOnly_error.mpr (checkFields_fails each _ flaw failed)

private theorem readRecord_fails (kind : RecordKind) (s : Text) :
    FailsOnly (fun flaw => flaw.message.OneLine) (readRecord kind s) := by
  rw [readRecord]
  split
  · rename_i flaw failed
    exact Result.failsOnly_error.mpr (checkForm_fails _ _ _ flaw failed)
  · split
    · rename_i name missing
      have named := oneLine_of_firstNotSet? missing
      exact Result.failsOnly_error.mpr (by simp +decide [Flaw.message, named])
    · exact Result.failsOnly_ok _

end Wire

/-- A text that the environment sets a switch to. -/
def Environment.SetsSwitch (environment : Environment) (value : Text) : Prop :=
  ∃ setting ∈ [Setting.comments, .parallel], environment.setting? setting = some value

private theorem Environment.boolean_fails (environment : Environment) {setting : Setting}
    (switch : setting ∈ [Setting.comments, .parallel]) :
    FailsOnly (fun fault => fault.asksForHelp = false ∧
        ∀ text ∈ fault.bareTexts, environment.SetsSwitch text)
      (environment.boolean setting) := by
  rw [Environment.boolean]
  split
  · exact Result.failsOnly_ok _
  · rename_i value set
    split
    · exact Result.failsOnly_ok _
    · have shown : environment.SetsSwitch value := ⟨setting, switch, set⟩
      exact Result.failsOnly_error.mpr ⟨rfl, List.forall_mem_singleton.mpr shown⟩

private theorem Flag.parts_fails (argument : Text) :
    FailsOnly Fault.PlainHelp (Flag.parts argument) := by
  rw [Flag.parts]
  split
  · exact Result.failsOnly_error.mpr (Or.inr rfl)
  · exact Result.failsOnly_ok _

private theorem Flag.boolean_fails (shown value : Text) :
    FailsOnly Fault.PlainHelp (Flag.boolean shown value) := by
  rw [Flag.boolean]
  split
  · exact Result.failsOnly_ok _
  · exact Result.failsOnly_error.mpr (Or.inr rfl)

namespace WrittenOptions

theorem ofEnvironment_fails (environment : Environment) :
    FailsOnly (fun fault => fault.asksForHelp = false ∧
        ∀ text ∈ fault.bareTexts, environment.SetsSwitch text)
      (ofEnvironment environment) := by
  refine Result.FailsOnly.located (fun _ refused => refused) ?_
  refine .bind (environment.boolean_fails (by decide)) fun _ _ => ?_
  refine .bind (environment.boolean_fails (by decide)) fun _ _ => ?_
  exact Result.failsOnly_pure _

private theorem set_fails (written : WrittenOptions) (flag : ParameterFlag) (value : Text) :
    FailsOnly Fault.PlainHelp (written.set flag value) := by
  cases flag with
  | mode | importStyle | reserved => exact Result.failsOnly_ok _
  | grpcJs | comments | parallel => exact (Flag.boolean_fails _ _).map

private theorem setAll_fails (written : WrittenOptions) (arguments : List Text) :
    FailsOnly Fault.PlainHelp (written.setAll arguments) := by
  -- A flag may take the argument after it, so the induction is on the number of arguments.
  induction length : arguments.length using Nat.strongRecOn generalizing written arguments with
  | ind count ih =>
    cases arguments with
    | nil => exact Result.failsOnly_ok _
    | cons argument rest =>
      have shorter (flag : ParameterFlag) (value : Text) {others : List Text}
          (fewer : others.length < count) : FailsOnly Fault.PlainHelp (do
            (← written.set flag value).setAll others) :=
        .bind (written.set_fails flag value) fun next _ => ih _ fewer next others rfl
      have one : rest.length < count := by simp [← length]
      rw [setAll]
      split
      · exact Result.failsOnly_pure _
      · refine .bind (Flag.parts_fails argument) fun ⟨name, value?⟩ _ => ?_
        dsimp only
        split
        · refine Result.failsOnly_throw.mpr ?_
          split
          · exact Or.inl rfl
          · exact Or.inr rfl
        · rename_i flag _
          split
          · exact shorter flag _ one
          · split
            · exact shorter flag _ one
            · split
              · exact Result.failsOnly_throw.mpr (Or.inr rfl)
              · exact shorter flag _ (Nat.lt_of_succ_lt one)

theorem checked_fails (written : WrittenOptions) :
    FailsOnly (fun fault => fault.asksForHelp = false ∧ fault.bareTexts = []) written.checked := by
  have mode : FailsOnly (fun fault => fault.asksForHelp = false ∧ fault.bareTexts = [])
      written.usesJs := by
    unfold usesJs
    extract_lets mode
    split
    · exact Result.failsOnly_ok _
    · split
      · exact Result.failsOnly_ok _
      · exact Result.failsOnly_error.mpr ⟨rfl, rfl⟩
  rw [checked]
  refine .bind mode fun _ _ => ?_
  dsimp only
  split
  · refine .bind (Result.failsOnly_pure _) fun _ _ => ?_
    split
    · exact .bind (Result.failsOnly_pure _) fun _ _ => Result.failsOnly_pure _
    · exact .bind (Result.failsOnly_throw.mpr ⟨rfl, rfl⟩) fun _ _ => Result.failsOnly_pure _
  · exact .bind (Result.failsOnly_throw.mpr ⟨rfl, rfl⟩) fun _ impossible => nomatch impossible

end WrittenOptions

private theorem Options.ofParameter_fails (environment : Environment) (parameter : Text) :
    FailsOnly Fault.PlainHelp (ofParameter environment parameter) := by
  rw [ofParameter]
  refine .bind ((WrittenOptions.ofEnvironment_fails environment).mono
    fun _ refused => Or.inr refused.1) fun _ _ => ?_
  refine .bind (WrittenOptions.setAll_fails _ _) fun written _ => ?_
  exact written.checked_fails.mono fun _ refused => Or.inr refused.1

namespace Request

section

variable {bare : Text → Prop}

private theorem convertFiles_fails (earlier : List Schema.File) {raws : List Descriptor.File}
    (shown : ∀ raw ∈ raws, ∀ text ∈ raw.bareTexts, bare text) :
    FailsOnly (Fault.Malformed bare) (convertFiles earlier raws) := by
  induction raws generalizing earlier with
  | nil => exact Result.failsOnly_ok _
  | cons raw rest ih =>
    obtain ⟨rawShown, restShown⟩ := List.forall_mem_cons.mp shown
    rw [convertFiles]
    split
    · rename_i fault failed
      have inconvertible := Schema.File.ofDescriptor_fails rawShown fault failed
      exact Result.failsOnly_error.mpr (.because inconvertible.noHelp
        (fun text member => .inr (inconvertible.bareTexts text member)) (by decide))
    · split
      · rename_i file _ _
        have words : Text.OneLine ("file " ++ Quoted.text file.path ++ " appears more than once") := by
          simp +decide
        exact Result.failsOnly_error.mpr
          ⟨rfl, rfl, List.forall_mem_singleton.mpr (.inl words)⟩
      · exact ih _ restShown

private theorem wanted_fails (files : List Schema.File) (paths : List Text) :
    FailsOnly (Fault.Malformed bare) (wanted files paths) := by
  induction paths with
  | nil => exact Result.failsOnly_ok _
  | cons path rest ih =>
    rw [wanted]
    split
    · rename_i fault failed
      unfold findFile at failed
      split at failed
      · simp at failed
      · obtain rfl := Except.error.inj failed
        exact Result.failsOnly_error.mpr (.because rfl (List.forall_mem_nil _) (by decide))
    · exact ih.map

theorem ofBytes_fails {input : Text} (shown : ∀ encoded, EncodedRequest.read input = .ok encoded →
      ∀ raw ∈ encoded.files, ∀ text ∈ raw.bareTexts, bare text) :
    FailsOnly (Fault.Malformed bare) (ofBytes input) := by
  rw [ofBytes]
  split
  · exact Result.failsOnly_error.mpr
      ⟨rfl, rfl, List.forall_mem_singleton.mpr (.inl (by decide))⟩
  · split
    · rename_i fault failed
      unfold EncodedRequest.read at failed
      split at failed
      · rename_i flaw refused
        obtain rfl := Except.error.inj failed
        have oneLine : (Fault.undecodable flaw).message.OneLine :=
          Wire.readRecord_fails _ _ flaw refused
        exact Result.failsOnly_error.mpr (.because rfl
          (fun text member => .inl ((Fault.oneLine_message _).mp oneLine text member)) (by decide))
      · simp at failed
    · rename_i encoded decoded
      rw [ofEncoded]
      refine .bind (convertFiles_fails _ (shown encoded decoded)) fun _ _ => ?_
      refine .bind (wanted_fails _ _) fun _ _ => ?_
      exact Result.failsOnly_pure _

end

/-- Options are refused as part of a malformed request, also where they are a call for help. -/
theorem options_fails (request : Request) (environment : Environment) :
    FailsOnly (fun fault => fault.kind = .malformedRequest ∧ (fault.asksForHelp = true ↔
        Options.ofParameter environment request.parameter = .error .helpRequested))
      (request.options environment) := by
  rw [options]
  split
  · rename_i inner failed
    refine Result.failsOnly_error.mpr ⟨rfl, ?_⟩
    change inner.asksForHelp = true ↔ _
    rcases Options.ofParameter_fails environment request.parameter inner failed with
      rfl | noHelp
    · exact ⟨fun _ => failed, fun _ => rfl⟩
    · refine ⟨fun help => absurd help (by simp [noHelp]), fun asked => ?_⟩
      obtain rfl := Except.error.inj (failed.symm.trans asked)
      rfl
  · exact Result.failsOnly_ok _

end Request

end ProtoTypings
