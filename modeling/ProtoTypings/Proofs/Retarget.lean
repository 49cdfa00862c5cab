import ProtoTypings.Proofs.Change
import ProtoTypings.Proofs.FieldType

set_option autoImplicit false
set_option relaxedAutoImplicit false

/-!
Declarations made with two symbol tables. They depend on a table only through what it makes of the
type names in the file: if these are resolved alike, up to a change of the targets, then the types
and signatures are alike up to that change.
-/

namespace ProtoTypings

namespace Schema

/-- The type name that a single value refers to. -/
def Field.ownTypeName (field : Field) : List Text :=
  if field.kind.symbolKind?.isSome then [field.typeName] else []

/-- The type names that are looked up for a field: its own, or that of its map values. -/
def Field.typeNames (field : Field) : List Text :=
  if field.kind = .map then
    match field.map with
    | some ⟨_, some value⟩ => value.ownTypeName
    | _ => []
  else field.ownTypeName

def Method.typeNames (method : Method) : List Text := [method.inputType, method.outputType]

/-- The type names in the fields, map values, extensions and methods of a file. -/
def File.typeNames (file : File) : List Text :=
  file.members.flatMap Field.typeNames ++
    file.services.flatMap fun service => service.methods.flatMap Method.typeNames

end Schema

section

variable {table : SymbolTable} {source : Text}

private theorem ElementType.reference_eq_some {owner : Text} {field : Schema.Field}
    {type : ElementType} (typed : ofField table source owner field = .ok type) {target : Resolution}
    (refers : type.reference? = some target) :
    ∃ name ∈ field.ownTypeName, table.resolve name source = .ok target := by
  rcases ofField_cases typed with ⟨scalar, -, rfl⟩ | ⟨kind, found, fieldKind, resolved, -, rfl⟩
  · simp at refers
  · obtain rfl : found = target := by simpa using refers
    exact ⟨field.typeName, by simp [Schema.Field.ownTypeName, fieldKind], resolved⟩

theorem FieldType.reference_eq_some {field : Schema.Field} {type : FieldType}
    (typed : ofField table source field = .ok type) {target : Resolution}
    (refers : type.reference? = some target) :
    ∃ name ∈ field.typeNames, table.resolve name source = .ok target := by
  rcases ofField_cases typed with ⟨notMap, element, elementTyped, rfl⟩ |
    ⟨isMap, key, value, keyType, valueType, entry, -, -, valueTyped, rfl⟩
  · rw [Schema.Field.typeNames, if_neg notMap]
    refine ElementType.reference_eq_some elementTyped ?_
    split at refers <;> exact refers
  · rw [Schema.Field.typeNames, if_pos isMap, entry]
    exact ElementType.reference_eq_some valueTyped refers

private theorem FieldType.ownTypeName_key {key : Schema.Field}
    (allowed : isKeyKind key.kind = true) : key.ownTypeName = [] := by
  cases kind : key.kind <;>
    simp [Schema.Field.ownTypeName, kind, Schema.FieldKind.symbolKind?, isKeyKind] at allowed ⊢

end

def ElementType.mapTarget (f : Resolution → Resolution) : ElementType → ElementType
  | .enum target => .enum (f target)
  | .message target => .message (f target)
  | .number => .number
  | .string => .string
  | .boolean => .boolean
  | .bytes => .bytes

def FieldType.mapTarget (f : Resolution → Resolution) : FieldType → FieldType
  | .single element => .single (element.mapTarget f)
  | .list element => .list (element.mapTarget f)
  | .map key value => .map (key.mapTarget f) (value.mapTarget f)

section

variable (f : Resolution → Resolution) (spell : Resolution → Text)

private theorem ElementType.value_mapTarget (type : ElementType) :
    (type.mapTarget f).value spell = type.value (spell ∘ f) := by
  cases type <;> rfl

private theorem ElementType.object_mapTarget (type : ElementType) :
    (type.mapTarget f).object spell = type.object (spell ∘ f) := by
  cases type <;> rfl

theorem FieldType.spell_mapTarget (type : FieldType) :
    (type.mapTarget f).spell spell = type.spell (spell ∘ f) := by
  cases type <;> simp only [mapTarget, FieldType.spell, ElementType.value_mapTarget,
    ElementType.object_mapTarget]

theorem FieldType.reference?_mapTarget (type : FieldType) :
    (type.mapTarget f).reference? = type.reference?.map f := by
  cases type with
  | single element | list element => cases element <;> rfl
  | map key value => cases value <;> rfl

end

/-- A change of targets under which two tables resolve a name alike. -/
def SymbolTable.Alike (f : Resolution → Resolution) (table table' : SymbolTable) (source : Text)
    (names : List Text) : Prop :=
  ∀ name ∈ names, Result.Agree (fun target target' => f target = target')
    (table.resolve name source) (table'.resolve name source)

theorem SymbolTable.alike_id (table : SymbolTable) (source : Text) (names : List Text) :
    SymbolTable.Alike id table table source names := fun _ _ => Result.agree_iff_eq.mpr rfl

private theorem ElementType.mapTarget_ofScalar (f : Resolution → Resolution)
    (scalar : Schema.Scalar)
    (jsType : Schema.JsType) : (ofScalar scalar jsType).mapTarget f = ofScalar scalar jsType := by
  unfold ofScalar
  split
  · rfl
  · rfl
  · rfl
  · split <;> rfl

section

variable {f : Resolution → Resolution} {table table' : SymbolTable} {source : Text}

private theorem ElementType.ofField_agree (kind : ∀ target, (f target).kind = target.kind)
    (owner : Text) {field : Schema.Field}
    (alike : SymbolTable.Alike f table table' source field.ownTypeName) :
    Result.Agree (fun type type' => type.mapTarget f = type')
      (ofField table source owner field) (ofField table' source owner field) := by
  rw [ofField, ofField]
  cases fieldKind : field.kind with
  | scalar scalar => exact mapTarget_ofScalar f scalar field.jsType
  | enum | message | group =>
    have resolved := alike field.typeName
      (by simp [Schema.Field.ownTypeName, fieldKind, Schema.FieldKind.symbolKind?])
    rcases resolved.cases with ⟨fault, failed, failed'⟩ | ⟨target, _, found, found', rfl⟩
    · simp only [failed, failed', Result.Agree]
    · simp only [found, found', kind target]
      split
      · rfl
      · rfl
  | invalid | map | unknown => rfl

private theorem FieldType.ofMap_agree (kind : ∀ target, (f target).kind = target.kind)
    {field : Schema.Field} (alike : ∀ key value, field.map = some ⟨key, some value⟩ →
      SymbolTable.Alike f table table' source value.ownTypeName) :
    Result.Agree (fun type type' => type.mapTarget f = type')
      (ofMap table source field) (ofMap table' source field) := by
  rw [ofMap, ofMap]
  rcases entry : field.map with _ | ⟨_ | key, _ | value⟩
  · rfl
  · rfl
  · rfl
  · rfl
  dsimp only
  split
  · rfl
  split
  · rfl
  -- the key is of a kind for which nothing is looked up
  rename_i keyKind _
  have keyAlike : SymbolTable.Alike f table table' source key.ownTypeName := by
    rw [ownTypeName_key (by simpa using keyKind)]
    intro name member
    cases member
  rcases (ElementType.ofField_agree kind field.name keyAlike).cases with
    ⟨fault, failed, failed'⟩ | ⟨keyType, _, typed, typed', rfl⟩
  · simp only [failed, failed', Result.Agree]
  rcases (ElementType.ofField_agree kind field.name (alike (some key) value entry)).cases with
    ⟨fault, failed, failed'⟩ | ⟨valueType, _, valueTyped, valueTyped', rfl⟩
  · simp only [typed, typed', failed, failed', Result.Agree]
  · simp only [typed, typed', valueTyped, valueTyped', Result.Agree, mapTarget]

private theorem FieldType.ofField_agree (kind : ∀ target, (f target).kind = target.kind)
    {field : Schema.Field} (alike : SymbolTable.Alike f table table' source field.typeNames) :
    Result.Agree (fun type type' => type.mapTarget f = type')
      (ofField table source field) (ofField table' source field) := by
  rw [ofField, ofField]
  by_cases isMap : field.kind = .map
  · rw [if_pos isMap, if_pos isMap]
    refine ofMap_agree kind fun key value entry => ?_
    simpa only [Schema.Field.typeNames, if_pos isMap, entry] using alike
  · rw [if_neg isMap, if_neg isMap]
    have single := ElementType.ofField_agree kind field.name
      (by simpa only [Schema.Field.typeNames, if_neg isMap] using alike)
    rcases single.cases with ⟨fault, failed, failed'⟩ | ⟨element, _, typed, typed', rfl⟩
    · simp only [failed, failed', Result.Agree]
    · simp only [typed, typed']
      cases field.isRepeated <;> rfl

private theorem SymbolTable.resolveMessage_agree (kind : ∀ target, (f target).kind = target.kind)
    {name : Text} (resolved : Result.Agree (fun target target' => f target = target')
      (table.resolve name source) (table'.resolve name source)) :
    Result.Agree (fun target target' => f target = target')
      (table.resolveMessage name source) (table'.resolveMessage name source) := by
  rw [resolveMessage, resolveMessage]
  rcases resolved.cases with ⟨fault, failed, failed'⟩ | ⟨target, _, found, found', rfl⟩
  · simp only [failed, failed', Result.Agree]
  · simp only [found, found', kind target]
    split
    · rfl
    · rfl

end

namespace Declaration

def Signature.mapTarget (f : Resolution → Resolution) (signature : Signature) : Signature :=
  { signature with
    request := f signature.request
    response := f signature.response }

def Service.change (f : Resolution → Resolution) (comment : List Text → List Text)
    (service : Service Signature) : Service Signature :=
  { service with
    methods := service.methods.map (·.mapTarget f)
    comment := comment service.comment }

theorem Service.change_id (service : Service Signature) : service.change id id = service := by
  rw [Service.change]
  exact congrArg (fun methods => { service with methods := methods }) (List.map_id _)

section

variable {f : Resolution → Resolution} {table table' : SymbolTable} {source : Text}
  {options options' : Options} {comment : List Text → List Text}

private theorem Signature.ofSchema_agree (kind : ∀ target, (f target).kind = target.kind)
    {method : Schema.Method} (alike : SymbolTable.Alike f table table' source method.typeNames) :
    Result.Agree (fun signature signature' => signature.mapTarget f = signature')
      (ofSchema table source method) (ofSchema table' source method) := by
  have resolved (name : Text) (member : name ∈ method.typeNames) :=
    SymbolTable.resolveMessage_agree kind (alike name member)
  rw [ofSchema, ofSchema]
  refine .bind (resolved method.inputType (by simp [Schema.Method.typeNames])).located ?_
  rintro request _ rfl
  refine .bind (resolved method.outputType (by simp [Schema.Method.typeNames])).located ?_
  rintro response _ rfl
  rfl

private theorem Service.signatures_agree (kind : ∀ target, (f target).kind = target.kind)
    (comments : ∀ text, comment (docLines options.comments text) = docLines options'.comments text)
    {service : Schema.Service} (alike : ∀ method ∈ service.methods,
      SymbolTable.Alike f table table' source method.typeNames) :
    Result.Agree (fun signed signed' => signed.change f comment = signed')
      (signatures table source options service) (signatures table' source options' service) := by
  rw [signatures, signatures]
  refine .bind (.mapM fun method member =>
    (Signature.ofSchema_agree kind (alike method member)).located) ?_
  intro methods methods' agree
  have same : methods.map (Signature.mapTarget f) = methods' := by
    simpa using Result.map_eq_map_iff.mpr agree
  simp only [Result.Agree, pure, Except.pure, Service.change, same, comments]

theorem ServiceFile.signatures_agree {file : Schema.File}
    (alike : SymbolTable.Alike f table table' file.path file.typeNames)
    (kind : ∀ target, (f target).kind = target.kind) (options options' : Options)
    (comment : List Text → List Text)
    (comments : ∀ text, comment (docLines options.comments text) =
      docLines options'.comments text) :
    Result.Agree (fun services services' => services.map (Service.change f comment) = services')
      (file.services.mapM (Service.signatures table file.path options))
      (file.services.mapM (Service.signatures table' file.path options')) := by
  have inFile {service : Schema.Service} (member : service ∈ file.services)
      {method : Schema.Method} (methodMember : method ∈ service.methods) :
      SymbolTable.Alike f table table' file.path method.typeNames := fun name nameMember =>
    alike name (List.mem_append_right _ (List.mem_flatMap.mpr
      ⟨service, member, List.mem_flatMap.mpr ⟨method, methodMember, nameMember⟩⟩))
  refine (Result.Agree.mapM fun service member =>
    Service.signatures_agree kind comments fun _ => inFile member).mono ?_
  intro services services' _ agree
  simpa using Result.map_eq_map_iff.mpr agree

theorem Context.outline_agree {file : Schema.File}
    (alike : SymbolTable.Alike f table table' file.path file.typeNames)
    (kind : ∀ target, (f target).kind = target.kind) (options : Options) :
    Result.Agree (fun outline outline' => outline.mapType (FieldType.mapTarget f) = outline')
      ((Context.ofFile file table options).outline file)
      ((Context.ofFile file table' options).outline file) := by
  have contexts : Context.Alike ⟨FieldType.mapTarget f, id, id⟩ ⟨id, id, id⟩ file.members
      (Context.ofFile file table options) (Context.ofFile file table' options) :=
    { types := fun field member => FieldType.ofField_agree kind fun name nameMember =>
        alike name (List.mem_append_left _ (List.mem_flatMap.mpr ⟨field, member, nameMember⟩))
      objectName := fun _ => rfl
      comment := fun _ => rfl
      proto3 := rfl }
  refine contexts.outline.mono fun outline outline' _ same => ?_
  rwa [Outline.change_type, Outline.change_id] at same

end

end Declaration

end ProtoTypings
