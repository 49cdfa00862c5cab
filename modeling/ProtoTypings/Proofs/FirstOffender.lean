import ProtoTypings.Proofs.MapFolding
import ProtoTypings.Proofs.Mappable
import ProtoTypings.Proofs.ServiceAlias

set_option autoImplicit false
set_option relaxedAutoImplicit false

/-!
For which schema files declarations can be made: those whose fields and extensions all have types
and whose methods take and return messages. For the others the reason given is that of the first
field, extension or method type on the walk that is in the way.
-/

namespace ProtoTypings

def IsFirst {α : Type} (P : α → Prop) (xs : List α) (x : α) : Prop :=
  ∃ before after, xs = before ++ x :: after ∧ P x ∧ ∀ y ∈ before, ¬P y

private theorem findSome?_flatMap {α β γ : Type} (f : α → List β) (g : β → Option γ) (xs : List α) :
    (xs.flatMap f).findSome? g = xs.findSome? fun x => (f x).findSome? g := by
  induction xs with
  | nil => rfl
  | cons x xs ih =>
    rw [List.flatMap_cons, List.findSome?_append, ih, List.findSome?_cons]
    cases (f x).findSome? g <;> rfl

namespace Result

variable {α β : Type}

/-- The innermost part of a failure, if the result is one. -/
def cause? : Except Fault α → Option Fault
  | .ok _ => none
  | .error fault => some fault.cause

private theorem cause?_eq_none_iff {result : Except Fault α} :
    cause? result = none ↔ ∃ a, result = .ok a := by
  cases result <;> simp [cause?]

private theorem cause?_eq_some_iff {result : Except Fault α} {cause : Fault} :
    cause? result = some cause ↔ ∃ fault, result = .error fault ∧ fault.cause = cause := by
  cases result <;> simp [cause?]

@[simp] theorem cause?_pure (a : α) : cause? (pure a) = none := rfl

@[simp] theorem cause?_located (place : Place) (result : Except Fault α) :
    cause? (Fault.located place result) = cause? result := by
  cases result <;> rfl

/-- The first step of a chain that fails gives the cause, if later failures do not depend on what
earlier steps made. -/
private theorem cause?_bind {first : Except Fault α} {next : α → Except Fault β}
    {cause : Option Fault} (thereafter : ∀ a, cause? (next a) = cause) :
    cause? (first >>= next) = (cause? first).or cause := by
  cases first with
  | error fault => rfl
  | ok a => exact thereafter a

private theorem cause?_mapM (f : α → Except Fault β) (xs : List α) :
    cause? (xs.mapM f) = xs.findSome? fun x => cause? (f x) := by
  induction xs with
  | nil => rfl
  | cons x xs ih =>
    have rest (y : β) : cause? (xs.mapM f >>= fun ys => pure (y :: ys)) =
        xs.findSome? fun x => cause? (f x) := by
      rw [cause?_bind fun ys => cause?_pure (y :: ys), Option.or_none, ih]
    rw [List.mapM_cons, List.findSome?_cons, cause?_bind rest]
    cases cause? (f x) <;> rfl

private theorem Settles.cause?_eq_none_iff {condition : Prop} {reason : Fault → Prop}
    {result : Except Fault α} (settles : Settles condition reason result) :
    cause? result = none ↔ condition := by
  cases result with
  | ok a => exact iff_of_true rfl settles
  | error fault => exact iff_of_false (by simp [cause?]) settles.1

private theorem settled_of_cause? {γ : Type} {P : α → Prop} {R : α → Fault → Prop}
    {f : α → Except Fault β} (settles : ∀ x, Settles (P x) (R x) (f x)) {xs : List α}
    {result : Except Fault γ} (cause : cause? result = xs.findSome? fun x => cause? (f x)) :
    ((∃ a, result = .ok a) ↔ ∀ x ∈ xs, P x) ∧
      ∀ fault, result = .error fault → ∃ offender, IsFirst (¬P ·) xs offender ∧
        R offender fault.cause ∧
        ∃ inner, f offender = .error inner ∧ inner.cause = fault.cause := by
  have success (x : α) : cause? (f x) = none ↔ P x := (settles x).cause?_eq_none_iff
  constructor
  · rw [← cause?_eq_none_iff, cause, List.findSome?_eq_none_iff]
    simp only [success]
  · rintro fault rfl
    obtain ⟨before, offender, after, split, failed, earlier⟩ :=
      List.findSome?_eq_some_iff.mp cause.symm
    obtain ⟨inner, made, same⟩ := cause?_eq_some_iff.mp failed
    have settled := settles offender
    rw [made] at settled
    refine ⟨offender, ⟨before, after, split, settled.1, fun x member => ?_⟩, ?_, inner, made, same⟩
    · rw [not_not]
      exact (success x).mp (earlier x member)
    · rw [← same]
      exact settled.2

end Result

namespace Schema

section

variable {field : Field}

mutual

private theorem Message.exists_position_of_mem_members :
    ∀ message : Message, field ∈ message.members →
    (field ∈ message.fields ∨ field ∈ message.extensions) ∨
      ∃ position node, nodeAt? Message.messages message.messages position = some node ∧
        (field ∈ node.fields ∨ field ∈ node.extensions)
  | { name, fullName, fields, messages, enums, oneofs, extensions, comments }, member => by
    rw [members, List.mem_append, List.mem_append] at member
    rcases member with own | nested | extension
    · exact Or.inl (Or.inl own)
    · exact Or.inr (Message.exists_position_of_mem_membersOfAll messages nested)
    · exact Or.inl (Or.inr extension)

private theorem Message.exists_position_of_mem_membersOfAll : ∀ messages : List Message,
    field ∈ Message.membersOfAll messages →
    ∃ position node, nodeAt? Message.messages messages position = some node ∧
      (field ∈ node.fields ∨ field ∈ node.extensions)
  | message :: rest, member => by
    rw [membersOfAll, List.mem_append] at member
    rcases member with first | later
    · rcases Message.exists_position_of_mem_members message first with own | below
      · exact ⟨[0], message, rfl, own⟩
      · obtain ⟨position, node, found, has⟩ := below
        exact ⟨0 :: position, node, nodeAt?_below rfl found, has⟩
    · obtain ⟨position, node, found, has⟩ :=
        Message.exists_position_of_mem_membersOfAll rest later
      cases position with
      | nil => simp [nodeAt?] at found
      | cons index below =>
        refine ⟨(index + 1) :: below, node, ?_, has⟩
        cases below <;> simpa [nodeAt?] using found

end

private theorem Message.members_eq (message : Message) :
    message.members = message.fields ++ (membersOfAll message.messages ++ message.extensions) := by
  cases message
  rfl

private theorem File.mem_members_iff {file : File} :
    field ∈ file.members ↔ file.HasField field := by
  rw [File.members, List.mem_append, or_comm, File.HasField]
  refine or_congr Iff.rfl ⟨Message.exists_position_of_mem_membersOfAll file.messages, ?_⟩
  rintro ⟨position, message, found, has⟩
  have inside : message.members ⊆ Message.membersOfAll file.messages := by
    refine nodeAt?_invariant
      (P := fun node => node.members ⊆ Message.membersOfAll file.messages) ?_ ?_ found
    · intro node within child member
      rw [Message.members_eq, Message.membersOfAll_eq_flatMap, List.append_subset,
        List.append_subset] at within
      exact List.Subset.trans (fun _ => List.mem_flatMap_of_mem member) within.2.1
    · intro node member
      rw [Message.membersOfAll_eq_flatMap]
      exact fun _ => List.mem_flatMap_of_mem member
  apply inside
  rw [Message.members_eq, List.mem_append, List.mem_append]
  tauto

end

end Schema

namespace Declaration

namespace Context

def cause? (context : Context) (field : Schema.Field) : Option Fault :=
  Result.cause? (FieldType.ofField context.table context.source field)

private theorem cause?_field (context : Context) (field : Schema.Field) :
    Result.cause? (context.field field) = context.cause? field := by
  rw [Context.field, cause?]
  cases FieldType.ofField context.table context.source field <;> rfl

private theorem cause?_extension (context : Context) (field : Schema.Field) :
    Result.cause? (context.extension field) = context.cause? field := by
  rw [extension, cause?]
  cases FieldType.ofField context.table context.source field <;> rfl

mutual

private theorem cause?_message (context : Context) : ∀ (scope : Text) (message : Schema.Message),
    Result.cause? (context.message scope message) = message.members.findSome? context.cause?
  | scope, { name, fullName, fields, messages, enums, oneofs, extensions, comments } => by
    rw [message, Schema.Message.members, List.findSome?_append, List.findSome?_append]
    refine (Result.cause?_bind fun _ => Result.cause?_bind fun _ => Result.cause?_bind fun _ =>
      Result.cause?_pure _).trans ?_
    rw [Result.cause?_mapM, Result.cause?_mapM, cause?_nestedMessages context _ messages,
      Option.or_none]
    simp only [cause?_field, cause?_extension]

private theorem cause?_nestedMessages (context : Context) (scope : Text) :
    ∀ messages : List Schema.Message, Result.cause? (context.nestedMessages scope messages) =
      (Schema.Message.membersOfAll messages).findSome? context.cause?
  | [] => by
    rw [nestedMessages]
    rfl
  | message :: rest => by
    rw [nestedMessages, Schema.Message.membersOfAll, List.findSome?_append]
    refine (Result.cause?_bind fun _ => Result.cause?_bind fun _ => Result.cause?_pure _).trans ?_
    rw [Result.cause?_located, cause?_message context scope message,
      cause?_nestedMessages context scope rest, Option.or_none]

end

private theorem cause?_outline (context : Context) (file : Schema.File) :
    Result.cause? (context.outline file) = file.members.findSome? context.cause? := by
  rw [outline, Schema.File.members, List.findSome?_append]
  refine (Result.cause?_bind fun _ => Result.cause?_bind fun _ => Result.cause?_pure _).trans ?_
  rw [Result.cause?_mapM, Result.cause?_mapM, Option.or_none,
    Schema.Message.membersOfAll_eq_flatMap, findSome?_flatMap]
  simp only [Result.cause?_located, cause?_message, cause?_extension]

end Context

private theorem cause?_messages (file : Schema.File) (table : SymbolTable) (options : Options) :
    Result.cause? (MessageFile.ofSchema file table options) =
      file.members.findSome? fun field =>
        Result.cause? (FieldType.ofField table file.path field) := by
  refine Eq.trans ?_ ((Context.ofFile file table options).cause?_outline file)
  rw [MessageFile.ofSchema_eq_map]
  cases (Context.ofFile file table options).outline file <;> rfl

section

variable (table : SymbolTable) (source : Text)

private theorem cause?_signature (method : Schema.Method) :
    Result.cause? (Signature.ofSchema table source method) =
      method.typeNames.findSome? fun name => Result.cause? (table.resolveMessage name source) := by
  rw [Signature.ofSchema]
  refine (Result.cause?_bind fun _ => Result.cause?_bind fun _ => Result.cause?_pure _).trans ?_
  rw [Result.cause?_located, Result.cause?_located, Option.or_none]
  cases request : Result.cause? (table.resolveMessage method.inputType source) with
  | none =>
    cases response : Result.cause? (table.resolveMessage method.outputType source) <;>
      simp [Schema.Method.typeNames, request, response]
  | some cause => simp [Schema.Method.typeNames, request]

private theorem cause?_signatures (options : Options) (service : Schema.Service) :
    Result.cause? (Service.signatures table source options service) =
      (service.methods.flatMap Schema.Method.typeNames).findSome? fun name =>
        Result.cause? (table.resolveMessage name source) := by
  rw [Service.signatures]
  refine (Result.cause?_bind fun _ => Result.cause?_pure _).trans ?_
  rw [Result.cause?_mapM, Option.or_none, findSome?_flatMap]
  simp only [Result.cause?_located, cause?_signature]

end

private theorem cause?_services (file : Schema.File) (table : SymbolTable) (options : Options) :
    Result.cause? (ServiceFile.ofSchema file table options) =
      file.methodTypeNames.findSome? fun name =>
        Result.cause? (table.resolveMessage name file.path) := by
  have walk : Result.cause? (file.services.mapM (Service.signatures table file.path options)) =
      file.methodTypeNames.findSome? fun name =>
        Result.cause? (table.resolveMessage name file.path) := by
    rw [Result.cause?_mapM, Schema.File.methodTypeNames, findSome?_flatMap]
    simp only [cause?_signatures]
  rw [← walk, ServiceFile.ofSchema_eq_map]
  split
  · rename_i none
    rw [List.isEmpty_iff.mp none]
    rfl
  · cases file.services.mapM (Service.signatures table file.path options) <;> rfl

/-- Message declarations are made exactly if all fields and extensions have types, and service
declarations exactly if all methods take and return messages. What fails otherwise is the first
field, extension or method type on the walk that is in the way: its reference is unresolved exactly
if the symbol table has nothing under the name and nothing else was wrong with it before. -/
theorem made_or_first_offender (file : Schema.File) (table : SymbolTable) (options : Options) :
    ((∃ emitted, MessageFile.ofSchema file table options = .ok emitted) ↔
      ∀ field, file.HasField field → field.Mappable table) ∧
    (∀ fault, MessageFile.ofSchema file table options = .error fault →
      ∃ offender, IsFirst (¬Schema.Field.Mappable table ·) file.members offender ∧
        Schema.Blames offender.name file.path (offender.Dangling table) fault.cause ∧
        ∃ inner, FieldType.ofField table file.path offender = .error inner ∧
          inner.cause = fault.cause) ∧
    ((∃ emitted, ServiceFile.ofSchema file table options = .ok emitted) ↔
      ∀ service ∈ file.services, ∀ method ∈ service.methods,
        table.Holds .message method.inputType ∧ table.Holds .message method.outputType) ∧
    ∀ fault, ServiceFile.ofSchema file table options = .error fault →
      ∃ offender, IsFirst (¬table.Holds .message ·) file.methodTypeNames offender ∧
        Schema.Blames offender file.path
          (fun name => name = offender ∧ table.find? offender = none) fault.cause ∧
        ∃ inner, table.resolveMessage offender file.path = .error inner ∧
          inner.cause = fault.cause := by
  obtain ⟨messagesMade, messagesFailed⟩ := Result.settled_of_cause?
    (FieldType.ofField_settles table file.path) (cause?_messages file table options)
  obtain ⟨servicesMade, servicesFailed⟩ := Result.settled_of_cause?
    (table.resolveMessage_settles file.path) (cause?_services file table options)
  refine ⟨?_, messagesFailed, ?_, servicesFailed⟩
  · rw [messagesMade]
    simp only [Schema.File.mem_members_iff]
  · rw [servicesMade]
    simp only [Schema.File.methodTypeNames, Schema.Method.typeNames, List.forall_mem_flatMap,
      List.forall_mem_cons, List.not_mem_nil, IsEmpty.forall_iff, implies_true, and_true]

/-- A file in which the values of a nested map refer to nothing, before an extension of no known
kind, and a method returns an enum. -/
def kennelFile : Schema.File where
  path := "kennel.proto"
  messages := [{
    name := "Dog"
    fullName := ".Dog"
    fields := [{ name := "age", number := 1, kind := .scalar .int32 }]
    messages := [{
      name := "Tag"
      fullName := ".Dog.Tag"
      fields := [{
        name := "owners"
        number := 1
        kind := .map
        cardinality := .repeated
        map := some ⟨some { kind := .scalar .string },
          some { kind := .message, typeName := ".Owner" }⟩ }] }]
    extensions := [{ name := "coat", number := 100, kind := .unknown 42 }] }]
  enums := [{ name := "Size", fullName := ".Size" }]
  services := [{
    name := "Care"
    fullName := ".Care"
    methods := [{ name := "Walk", inputType := ".Dog", outputType := ".Size" }] }]

theorem made_or_first_offender_kennelFile :
    let table : SymbolTable := ⟨Symbol.ofFile kennelFile, .fromRoot⟩
    (∃ fault offender, MessageFile.ofSchema kennelFile table {} = .error fault ∧
      fault.cause = .unresolved ".Owner" "kennel.proto" ∧
      IsFirst (¬Schema.Field.Mappable table ·) kennelFile.members offender ∧
      offender.Dangling table ".Owner") ∧
    ∃ fault offender, ServiceFile.ofSchema kennelFile table {} = .error fault ∧
      fault.cause = .unsupported ".Size" .enum .notCallable ∧
      IsFirst (¬table.Holds .message ·) kennelFile.methodTypeNames offender := by
  intro table
  obtain ⟨-, messagesFailed, -, servicesFailed⟩ := made_or_first_offender kennelFile table {}
  constructor
  · obtain ⟨offender, first, blames, -⟩ := messagesFailed _ rfl
    exact ⟨_, offender, rfl, rfl, first, ((blames.unresolved_iff _ _).mp rfl).2⟩
  · obtain ⟨offender, first, -⟩ := servicesFailed _ rfl
    exact ⟨_, offender, rfl, rfl, first⟩

end Declaration

end ProtoTypings

