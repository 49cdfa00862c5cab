import ProtoTypings.FieldType
import ProtoTypings.Proofs.Result

set_option autoImplicit false
set_option relaxedAutoImplicit false

/-!
What the type of a field is made of: which reference it holds, and that this reference was resolved
to a declaration of the kind that the field's kind asks for.
-/

namespace ProtoTypings

theorem SymbolTable.resolve_eq_ok {table : SymbolTable} {name source : Text}
    {target : Resolution} (resolved : table.resolve name source = .ok target) :
    table.find? name = some target.toSymbol ∧
      target.isLocal = decide (target.file = source) ∧
      target.importPath = Path.importPath source target.file table.importStyle := by
  rw [resolve] at resolved
  split at resolved
  · simp at resolved
  · rename_i symbol found
    obtain rfl := Except.ok.inj resolved
    exact ⟨found, rfl, rfl⟩

private theorem SymbolTable.resolve_eq_error {table : SymbolTable} {name source : Text}
    {fault : Fault}
    (failed : table.resolve name source = .error fault) : fault = .unresolved name source := by
  rw [resolve] at failed
  split at failed
  · exact (Except.error.inj failed).symm
  · cases failed

theorem SymbolTable.importName_of_resolve {table : SymbolTable} {name source : Text}
    {target : Resolution} (resolved : table.resolve name source = .ok target) :
    target.importName = Path.importAlias target.file := by
  rw [resolve] at resolved
  split at resolved
  · simp at resolved
  · obtain rfl := Except.ok.inj resolved
    rfl

theorem SymbolTable.resolveMessage_eq_ok {table : SymbolTable} {name source : Text}
    {target : Resolution} (resolved : table.resolveMessage name source = .ok target) :
    table.resolve name source = .ok target ∧ target.kind = .message := by
  rw [resolveMessage] at resolved
  split at resolved
  · simp at resolved
  · rename_i other found
    split at resolved
    · rename_i kind
      obtain rfl := Except.ok.inj resolved
      exact ⟨found, kind⟩
    · simp at resolved

def Schema.FieldKind.symbolKind? : Schema.FieldKind → Option SymbolKind
  | .enum => some .enum
  | .message | .group => some .message
  | .scalar _ | .map | .invalid | .unknown _ => none

def SymbolKind.elementType : SymbolKind → Resolution → ElementType
  | .enum => .enum
  | .message => .message

@[simp] theorem SymbolKind.reference?_elementType (kind : SymbolKind) (target : Resolution) :
    (kind.elementType target).reference? = some target := by
  cases kind <;> rfl

namespace ElementType

theorem ofField_cases {table : SymbolTable} {source owner : Text} {field : Schema.Field}
    {type : ElementType} (typed : ofField table source owner field = .ok type) :
    (∃ scalar, field.kind = .scalar scalar ∧ type = ofScalar scalar field.jsType) ∨
    (∃ kind target, field.kind.symbolKind? = some kind ∧
      table.resolve field.typeName source = .ok target ∧ target.kind = kind ∧
      type = kind.elementType target) := by
  rw [ofField] at typed
  cases kind : field.kind with
  | scalar scalar =>
    simp only [kind, Except.ok.injEq] at typed
    exact Or.inl ⟨scalar, rfl, typed.symm⟩
  | enum | message | group =>
    right
    simp only [kind] at typed
    split at typed
    · simp at typed
    · rename_i target resolved
      split at typed
      · rename_i same
        exact ⟨_, target, rfl, resolved, same, (Except.ok.inj typed).symm⟩
      · simp at typed
  | invalid | map | unknown => simp [kind] at typed

theorem ofField_eq_error {table : SymbolTable} {source owner : Text} {field : Schema.Field}
    {fault : Fault} (failed : ofField table source owner field = .error fault) :
    fault = .within (.field owner) (.unresolved field.typeName source) ∨
    ∃ reason ∈ [Unsupported.kind, .notEnum field.typeName, .notMessage field.typeName],
      fault = .unsupported owner field.kind reason := by
  rw [ofField] at failed
  cases kind : field.kind with
  | scalar scalar => simp [kind] at failed
  | enum | message | group =>
    simp only [kind] at failed
    split at failed
    · rename_i inner unresolved
      obtain rfl := Except.error.inj failed
      exact Or.inl (by rw [SymbolTable.resolve_eq_error unresolved])
    · split at failed
      · cases failed
      · exact Or.inr ⟨_, by simp, (Except.error.inj failed).symm⟩
  | invalid | map | unknown =>
    simp only [kind] at failed
    exact Or.inr ⟨.kind, by simp, (Except.error.inj failed).symm⟩

@[simp] theorem reference?_ofScalar (scalar : Schema.Scalar) (jsType : Schema.JsType) :
    (ofScalar scalar jsType).reference? = none := by
  unfold ofScalar
  split
  · rfl
  · rfl
  · rfl
  · split <;> rfl

end ElementType

namespace FieldType

def ofMap (table : SymbolTable) (source : Text) (field : Schema.Field) : Except Fault FieldType :=
  match field.map with
  | some ⟨some key, some value⟩ =>
    if !isKeyKind key.kind then .error (.unsupported field.name key.kind .mapKey)
    else if value.kind = .map then .error (.unsupported field.name value.kind .mapOfMaps)
    else
      match ElementType.ofField table source field.name key with
      | .error fault => .error fault
      | .ok keyType =>
        match ElementType.ofField table source field.name value with
        | .error fault => .error fault
        | .ok valueType => .ok (.map keyType valueType)
  | _ => .error (.unsupported field.name field.kind .incompleteMap)

def ofField (table : SymbolTable) (source : Text) (field : Schema.Field) :
    Except Fault FieldType :=
  if field.kind = .map then ofMap table source field
  else match ElementType.ofField table source field.name field with
    | .error fault => .error fault
    | .ok element => .ok (if field.isRepeated then .list element else .single element)

/-- The declaration that a type refers to. The key of a map refers to none. -/
def reference? : FieldType → Option Resolution
  | .single element | .list element => element.reference?
  | .map _ value => value.reference?

theorem ofField_cases {table : SymbolTable} {source : Text} {field : Schema.Field}
    {type : FieldType} (typed : ofField table source field = .ok type) :
    (field.kind ≠ .map ∧ ∃ element,
      ElementType.ofField table source field.name field = .ok element ∧
      type = if field.isRepeated then .list element else .single element) ∨
    (field.kind = .map ∧ ∃ key value keyType valueType,
      field.map = some ⟨some key, some value⟩ ∧ isKeyKind key.kind = true ∧
      ElementType.ofField table source field.name key = .ok keyType ∧
      ElementType.ofField table source field.name value = .ok valueType ∧
      type = .map keyType valueType) := by
  rw [ofField] at typed
  split at typed
  · rename_i isMap
    right
    rw [ofMap] at typed
    split at typed
    · rename_i key value entry
      split at typed
      · simp at typed
      · rename_i keyKind
        split at typed
        · simp at typed
        · split at typed
          · simp at typed
          · rename_i keyType keyTyped
            split at typed
            · simp at typed
            · rename_i valueType valueTyped
              exact ⟨isMap, key, value, keyType, valueType, entry, by simpa using keyKind, keyTyped,
                valueTyped, (Except.ok.inj typed).symm⟩
    · simp at typed
  · rename_i notMap
    left
    split at typed
    · simp at typed
    · rename_i element elementTyped
      exact ⟨notMap, element, elementTyped, (Except.ok.inj typed).symm⟩

theorem exists_plain_keyType (table : SymbolTable) (source owner : Text) {key : Schema.Field}
    (allowed : isKeyKind key.kind = true) :
    ∃ type, ElementType.ofField table source owner key = .ok type ∧ type.reference? = none := by
  cases kind : key.kind with
  | scalar scalar =>
    refine ⟨ElementType.ofScalar scalar key.jsType, ?_, ElementType.reference?_ofScalar _ _⟩
    rw [ElementType.ofField, kind]
  | invalid | enum | message | group | map | unknown =>
    rw [kind] at allowed
    cases allowed

theorem reference?_key {table : SymbolTable} {source : Text} {field : Schema.Field}
    {key value : ElementType} (typed : ofField table source field = .ok (.map key value)) :
    key.reference? = none := by
  rcases ofField_cases typed with ⟨-, element, -, same⟩ |
    ⟨-, keyField, valueField, keyType, valueType, -, allowed, keyTyped, -, same⟩
  · split at same <;> cases same
  · obtain ⟨rfl, rfl⟩ := FieldType.map.inj same
    obtain ⟨type, plainTyped, plain⟩ := exists_plain_keyType table source field.name allowed
    obtain rfl := Except.ok.inj (keyTyped.symm.trans plainTyped)
    exact plain

end FieldType

section

variable {spell spell' : Resolution → Text}

private theorem ElementType.value_congr {type : ElementType}
    (same : ∀ target, type.reference? = some target → spell target = spell' target) :
    type.value spell = type.value spell' := by
  cases type with
  | enum target | message target => simp only [value, same target rfl]
  | number | string | boolean | bytes => rfl

private theorem ElementType.object_congr {type : ElementType}
    (same : ∀ target, type.reference? = some target → spell target = spell' target) :
    type.object spell = type.object spell' := by
  cases type with
  | enum target | message target => simp only [object, value, same target rfl]
  | number | string | boolean | bytes => rfl

theorem FieldType.spell_congr {table : SymbolTable} {source : Text} {field : Schema.Field}
    {type : FieldType} (typed : ofField table source field = .ok type)
    (same : ∀ target, type.reference? = some target → spell target = spell' target) :
    type.spell spell = type.spell spell' := by
  cases type with
  | single element | list element =>
    simp only [FieldType.spell, ElementType.value_congr same, ElementType.object_congr same]
  | map key value =>
    have keySame : ∀ target, key.reference? = some target → spell target = spell' target := by
      intro target refers
      rw [reference?_key typed] at refers
      cases refers
    have valueSame : ∀ target, value.reference? = some target → spell target = spell' target := same
    simp only [FieldType.spell, ElementType.value_congr keySame, ElementType.value_congr valueSame,
      ElementType.object_congr valueSame]

end

namespace Imports

variable (imports : Imports) (table : SymbolTable) (source : Text) (field : Schema.Field)

/-- What there is to record once the type of a field is known. -/
def recorded : Except Fault FieldType → Except Fault FieldType × Imports
  | .error fault => (.error fault, imports)
  | .ok type => (.ok type, imports.addAll type.reference?.toList)

/-- Nothing is recorded for the key of a map, so its value finds the imports as they were. -/
private theorem recordMap_eq :
    imports.recordMap table source field = imports.recorded (FieldType.ofMap table source field) := by
  rw [recordMap, FieldType.ofMap]
  rcases field.map with _ | ⟨_ | key, _ | value⟩
  · rfl
  · rfl
  · rfl
  · rfl
  · dsimp only
    split
    · rfl
    · rename_i notRefused
      have allowed : FieldType.isKeyKind key.kind = true := by simpa using notRefused
      split
      · rfl
      · obtain ⟨keyType, typed, plain⟩ :=
          FieldType.exists_plain_keyType table source field.name allowed
        have unchanged : imports.recordElement table source field.name key =
            (.ok keyType, imports) := by
          rw [recordElement, typed]
          simp only [plain, Option.toList_none]
          rfl
        rw [unchanged, typed]
        dsimp only
        rw [recordElement]
        cases ElementType.ofField table source field.name value <;> rfl

/-- References are recorded as if the whole type had been determined before. -/
theorem recordField_eq :
    imports.recordField table source field =
      imports.recorded (FieldType.ofField table source field) := by
  rw [recordField, FieldType.ofField]
  split
  · exact imports.recordMap_eq table source field
  · rw [recordElement]
    cases ElementType.ofField table source field.name field with
    | error fault => rfl
    | ok element => cases field.isRepeated <;> rfl

end Imports

end ProtoTypings
