import ProtoTypings.Proofs.FieldType

set_option autoImplicit false
set_option relaxedAutoImplicit false

/-!
The fields that have a type. Which do can be said from the kinds and from what a symbol table holds;
the others are refused with an unresolved reference if nothing but the reference is wrong with them,
and with an unsupported kind else.
-/

namespace ProtoTypings

def SymbolTable.Holds (table : SymbolTable) (kind : SymbolKind) (name : Text) : Prop :=
  ∃ symbol, table.find? name = some symbol ∧ symbol.kind = kind

namespace Schema

/-- The kinds that the keys of maps may have: the integers, booleans and strings. -/
def FieldKind.keyKinds : List FieldKind :=
  [.scalar .int32, .scalar .int64, .scalar .uint32, .scalar .uint64, .scalar .sint32,
    .scalar .sint64, .scalar .fixed32, .scalar .fixed64, .scalar .sfixed32, .scalar .sfixed64,
    .scalar .bool, .scalar .string]

/-- Fields that have a type if the declarations in a table can be referred to. -/
inductive Field.Mappable (table : SymbolTable) : Field → Prop where
  | scalar {field : Field} {type : Scalar} (kind : field.kind = .scalar type) :
      Mappable table field
  | enum {field : Field} (kind : field.kind = .enum) (held : table.Holds .enum field.typeName) :
      Mappable table field
  | message {field : Field} (kind : field.kind = .message ∨ field.kind = .group)
      (held : table.Holds .message field.typeName) : Mappable table field
  | map {field key value : Field} (kind : field.kind = .map)
      (parts : field.map = some ⟨some key, some value⟩) (allowed : key.kind ∈ FieldKind.keyKinds)
      (noMap : value.kind ≠ .map) (mappable : Mappable table value) : Mappable table field

/-- The reference of a field that is looked up in vain: its own, or that of the values of its map
if nothing else is wrong with the map. -/
inductive Field.Dangling (table : SymbolTable) (field : Field) : Text → Prop where
  | own (refers : field.kind.isReference = true) (absent : table.find? field.typeName = none) :
      Dangling table field field.typeName
  | value {key value : Field} (kind : field.kind = .map)
      (parts : field.map = some ⟨some key, some value⟩) (allowed : key.kind ∈ FieldKind.keyKinds)
      (refers : value.kind.isReference = true) (absent : table.find? value.typeName = none) :
      Dangling table field value.typeName

private theorem FieldKind.isReference_of_symbolKind? {kind : FieldKind} {refersTo : SymbolKind}
    (refers : kind.symbolKind? = some refersTo) : kind.isReference = true := by
  cases kind with
  | enum | message | group => rfl
  | invalid | scalar | map | unknown => cases refers

section

variable {table : SymbolTable} {field : Field}

private theorem Field.mappable_iff_of_reference {kind : SymbolKind}
    (refers : field.kind.symbolKind? = some kind) :
    field.Mappable table ↔ table.Holds kind field.typeName := by
  constructor
  · intro mappable
    cases mappable with
    | scalar same => simp [same, FieldKind.symbolKind?] at refers
    | enum same held =>
      obtain rfl : SymbolKind.enum = kind := by simpa [same, FieldKind.symbolKind?] using refers
      exact held
    | message same held =>
      obtain rfl : SymbolKind.message = kind := by
        rcases same with same | same <;> simpa [same, FieldKind.symbolKind?] using refers
      exact held
    | map same => simp [same, FieldKind.symbolKind?] at refers
  · intro held
    cases same : field.kind with
    | enum =>
      obtain rfl : SymbolKind.enum = kind := by simpa [same, FieldKind.symbolKind?] using refers
      exact .enum same held
    | message | group =>
      obtain rfl : SymbolKind.message = kind := by simpa [same, FieldKind.symbolKind?] using refers
      exact .message (by simp [same]) held
    | invalid | scalar | map | unknown => simp [same, FieldKind.symbolKind?] at refers

private theorem Field.not_mappable_of_invalid
    (invalid : field.kind = .invalid ∨ ∃ code, field.kind = .unknown code) :
    ¬field.Mappable table := by
  intro mappable
  rcases invalid with kind | ⟨code, kind⟩ <;> cases mappable <;> simp_all

private theorem Field.dangling_iff_of_single (noMap : field.kind ≠ .map) {name : Text} :
    field.Dangling table name ↔
      field.kind.isReference = true ∧ table.find? field.typeName = none ∧
        name = field.typeName := by
  constructor
  · intro dangling
    cases dangling with
    | own refers absent => exact ⟨refers, absent, rfl⟩
    | value isMap => exact absurd isMap noMap
  · rintro ⟨refers, absent, rfl⟩
    exact .own refers absent

section

variable (isMap : field.kind = .map)
include isMap

private theorem Field.Mappable.exists_parts (mappable : field.Mappable table) :
    ∃ key value, field.map = some ⟨some key, some value⟩ ∧ key.kind ∈ FieldKind.keyKinds ∧
      value.kind ≠ .map ∧ value.Mappable table := by
  cases mappable with
  | scalar kind => simp [isMap] at kind
  | enum kind => simp [isMap] at kind
  | message kind => simp [isMap] at kind
  | map _ parts allowed noMap mappable => exact ⟨_, _, parts, allowed, noMap, mappable⟩

private theorem Field.Dangling.exists_parts {name : Text} (dangling : field.Dangling table name) :
    ∃ key value, field.map = some ⟨some key, some value⟩ ∧ key.kind ∈ FieldKind.keyKinds ∧
      value.kind ≠ .map ∧ value.Dangling table name := by
  cases dangling with
  | own refers => simp [isMap, FieldKind.isReference] at refers
  | value _ parts allowed refers absent =>
    refine ⟨_, _, parts, allowed, fun valueIsMap => ?_, .own refers absent⟩
    simp [valueIsMap, FieldKind.isReference] at refers

variable {key value : Field} (parts : field.map = some ⟨some key, some value⟩)
include parts

private theorem Field.mappable_iff_of_map : field.Mappable table ↔
    key.kind ∈ FieldKind.keyKinds ∧ value.kind ≠ .map ∧ value.Mappable table := by
  constructor
  · intro mappable
    obtain ⟨_, _, same, holds⟩ := mappable.exists_parts isMap
    cases parts.symm.trans same
    exact holds
  · rintro ⟨allowed, noMap, mappable⟩
    exact .map isMap parts allowed noMap mappable

private theorem Field.dangling_iff_of_map {name : Text} : field.Dangling table name ↔
    key.kind ∈ FieldKind.keyKinds ∧ value.kind ≠ .map ∧ value.Dangling table name := by
  constructor
  · intro dangling
    obtain ⟨_, _, same, holds⟩ := dangling.exists_parts isMap
    cases parts.symm.trans same
    exact holds
  · rintro ⟨allowed, noMap, dangling⟩
    obtain ⟨refers, absent, rfl⟩ := (dangling_iff_of_single noMap).mp dangling
    exact .value isMap parts allowed refers absent

end

end

/-- A cause for which an element of a file has no type: an unresolved reference exactly where a name
is dangling, and otherwise a kind that is not supported, which is blamed on the element. -/
structure Blames (element source : Text) (dangling : Text → Prop) (cause : Fault) : Prop where
  unresolved_iff : ∀ name place, cause = .unresolved name place ↔ place = source ∧ dangling name
  otherwise : (∀ name, ¬dangling name) → ∃ kind reason, cause = .unsupported element kind reason

section

variable {element source : Text} {dangling dangling' : Text → Prop} {cause : Fault}

private theorem Blames.congr (blames : Blames element source dangling cause)
    (same : ∀ name, dangling name ↔ dangling' name) : Blames element source dangling' cause := by
  obtain rfl : dangling = dangling' := funext fun name => propext (same name)
  exact blames

private theorem blames_unsupported (none : ∀ name, ¬dangling name) (kind : FieldKind)
    (reason : Unsupported) : Blames element source dangling (.unsupported element kind reason) := by
  refine ⟨fun name place => iff_of_false (by simp) fun found => none name found.2, fun _ => ?_⟩
  exact ⟨kind, reason, rfl⟩

private theorem blames_unresolved {name : Text} (only : ∀ other, dangling other ↔ other = name) :
    Blames element source dangling (.unresolved name source) := by
  refine ⟨fun other place => ?_, fun none => absurd ((only name).mpr rfl) (none name)⟩
  rw [only, Fault.unresolved.injEq, eq_comm, and_comm, @eq_comm _ source]

end

end Schema

/-- A result that is a success exactly if a condition holds, and otherwise a failure with a cause of
a certain sort. -/
def Result.Settles {α : Type} (condition : Prop) (reason : Fault → Prop) : Except Fault α → Prop
  | .ok _ => condition
  | .error fault => ¬condition ∧ reason fault.cause

private theorem SymbolTable.resolve_of_absent {table : SymbolTable} {name : Text}
    (absent : table.find? name = none) (source : Text) :
    table.resolve name source = .error (.unresolved name source) := by
  rw [resolve, absent]

private theorem SymbolTable.exists_resolve {table : SymbolTable} {name : Text} {symbol : Symbol}
    (found : table.find? name = some symbol) (source : Text) :
    ∃ target, table.resolve name source = .ok target ∧ target.kind = symbol.kind := by
  rw [resolve, found]
  exact ⟨_, rfl, rfl⟩

namespace ElementType

variable {table : SymbolTable} {source owner : Text} {field : Schema.Field}

private theorem ofField_of_reference {kind : SymbolKind}
    (refers : field.kind.symbolKind? = some kind) : ∃ reason, ofField table source owner field =
      match table.resolve field.typeName source with
      | .error fault => .error (.within (.field owner) fault)
      | .ok target =>
        if target.kind = kind then .ok (kind.elementType target)
        else .error (.unsupported owner field.kind reason) := by
  rw [ofField]
  cases same : field.kind with
  | enum | message | group =>
    obtain rfl : _ = kind := by simpa [same, Schema.FieldKind.symbolKind?] using refers
    exact ⟨_, rfl⟩
  | invalid | scalar | map | unknown => simp [same, Schema.FieldKind.symbolKind?] at refers

private theorem settles_of_reference {kind : SymbolKind}
    (refers : field.kind.symbolKind? = some kind) : Result.Settles (field.Mappable table)
      (Schema.Blames owner source (field.Dangling table)) (ofField table source owner field) := by
  have noMap : field.kind ≠ .map := by
    intro isMap
    simp [isMap, Schema.FieldKind.symbolKind?] at refers
  have isReference := Schema.FieldKind.isReference_of_symbolKind? refers
  have dangling (name : Text) : field.Dangling table name ↔
      table.find? field.typeName = none ∧ name = field.typeName := by
    rw [Schema.Field.dangling_iff_of_single noMap, and_iff_right isReference]
  obtain ⟨reason, typed⟩ := ofField_of_reference refers
  rw [typed]
  cases found : table.find? field.typeName with
  | none =>
    rw [SymbolTable.resolve_of_absent found]
    refine ⟨?_, Schema.blames_unresolved fun other => ?_⟩
    · rw [Schema.Field.mappable_iff_of_reference refers]
      simp [SymbolTable.Holds, found]
    · simp [dangling, found]
  | some symbol =>
    obtain ⟨target, resolved, sameKind⟩ := SymbolTable.exists_resolve found source
    have mappable : field.Mappable table ↔ target.kind = kind := by
      rw [Schema.Field.mappable_iff_of_reference refers]
      simp [SymbolTable.Holds, found, sameKind]
    rw [resolved]
    dsimp only
    split
    · rename_i right
      exact mappable.mpr right
    · rename_i wrong
      refine ⟨mt mappable.mp wrong, Schema.blames_unsupported (fun name => ?_) _ _⟩
      simp [dangling, found]

private theorem ofField_settles (noMap : field.kind ≠ .map) :
    Result.Settles (field.Mappable table)
      (Schema.Blames owner source (field.Dangling table)) (ofField table source owner field) := by
  cases kind : field.kind with
  | scalar type =>
    rw [ofField, kind]
    exact .scalar kind
  | enum => exact settles_of_reference (by rw [kind]; rfl)
  | message | group => exact settles_of_reference (by rw [kind]; rfl)
  | invalid | unknown =>
    have invalid : field.kind = .invalid ∨ ∃ code, field.kind = .unknown code := by simp [kind]
    rw [ofField, kind]
    refine ⟨Schema.Field.not_mappable_of_invalid invalid, ?_⟩
    refine Schema.blames_unsupported (fun name => ?_) _ _
    simp [Schema.Field.dangling_iff_of_single noMap, kind, Schema.FieldKind.isReference]
  | map => exact absurd kind noMap

end ElementType

theorem SymbolTable.resolveMessage_settles (table : SymbolTable) (source name : Text) :
    Result.Settles (table.Holds .message name)
      (Schema.Blames name source fun other => other = name ∧ table.find? name = none)
      (table.resolveMessage name source) := by
  rw [resolveMessage]
  cases found : table.find? name with
  | none =>
    rw [resolve_of_absent found]
    exact ⟨by simp [Holds, found], Schema.blames_unresolved fun other => by simp⟩
  | some symbol =>
    obtain ⟨target, resolved, sameKind⟩ := exists_resolve found source
    rw [resolved]
    dsimp only
    split
    · rename_i isMessage
      exact ⟨symbol, found, sameKind.symm.trans isMessage⟩
    · rename_i noMessage
      refine ⟨?_, Schema.blames_unsupported (by simp) _ _⟩
      simpa [Holds, found, ← sameKind] using noMessage

namespace FieldType

variable {table : SymbolTable} {source : Text} {field : Schema.Field}

private theorem isKeyKind_iff {kind : Schema.FieldKind} :
    isKeyKind kind = true ↔ kind ∈ Schema.FieldKind.keyKinds := by
  cases kind with
  | scalar type => cases type <;> decide
  | invalid | enum | message | group | map => decide
  | unknown code => simp [isKeyKind, Schema.FieldKind.keyKinds]

private theorem exists_keyType (table : SymbolTable) (source owner : Text) {key : Schema.Field}
    (allowed : key.kind ∈ Schema.FieldKind.keyKinds) :
    ∃ type, ElementType.ofField table source owner key = .ok type := by
  obtain ⟨type, typed, -⟩ := exists_plain_keyType table source owner (isKeyKind_iff.mpr allowed)
  exact ⟨type, typed⟩

private theorem ofMap_settles (isMap : field.kind = .map) :
    Result.Settles (field.Mappable table)
      (Schema.Blames field.name source (field.Dangling table)) (ofMap table source field) := by
  rw [ofMap]
  split
  · rename_i key value parts
    have mappable_iff : field.Mappable table ↔ _ := Schema.Field.mappable_iff_of_map isMap parts
    have dangling_iff (name : Text) : field.Dangling table name ↔ _ :=
      Schema.Field.dangling_iff_of_map isMap parts
    by_cases allowed : key.kind ∈ Schema.FieldKind.keyKinds
    · have isKey : isKeyKind key.kind = true := isKeyKind_iff.mpr allowed
      rw [if_neg (by simp [isKey])]
      split
      · rename_i nested
        refine ⟨by simp [mappable_iff, nested], Schema.blames_unsupported (fun name => ?_) _ _⟩
        simp [dangling_iff, nested]
      · rename_i noMap
        obtain ⟨keyType, keyTyped⟩ := exists_keyType table source field.name allowed
        have settles : Result.Settles (value.Mappable table)
            (Schema.Blames field.name source (value.Dangling table))
            (ElementType.ofField table source field.name value) :=
          ElementType.ofField_settles noMap
        rw [keyTyped]
        dsimp only
        cases typed : ElementType.ofField table source field.name value with
        | ok valueType =>
          rw [typed] at settles
          exact mappable_iff.mpr ⟨allowed, noMap, settles⟩
        | error fault =>
          rw [typed] at settles
          refine ⟨fun mappable => settles.1 (mappable_iff.mp mappable).2.2, ?_⟩
          refine settles.2.congr fun name => ?_
          simp [dangling_iff, allowed, noMap]
    · have noKey : isKeyKind key.kind = false := by
        rw [← Bool.not_eq_true, isKeyKind_iff]
        exact allowed
      rw [if_pos (by simp [noKey])]
      refine ⟨by simp [mappable_iff, allowed], Schema.blames_unsupported (fun name => ?_) _ _⟩
      simp [dangling_iff, allowed]
  · rename_i incomplete
    refine ⟨fun mappable => ?_, Schema.blames_unsupported (fun name dangling => ?_) _ _⟩
    · obtain ⟨key, value, parts, -⟩ := mappable.exists_parts isMap
      exact incomplete key value parts
    · obtain ⟨key, value, parts, -⟩ := dangling.exists_parts isMap
      exact incomplete key value parts

theorem ofField_settles (table : SymbolTable) (source : Text) (field : Schema.Field) :
    Result.Settles (field.Mappable table)
      (Schema.Blames field.name source (field.Dangling table)) (ofField table source field) := by
  rw [ofField]
  split
  · rename_i isMap
    exact ofMap_settles isMap
  · rename_i noMap
    have settles : Result.Settles (field.Mappable table)
        (Schema.Blames field.name source (field.Dangling table))
        (ElementType.ofField table source field.name field) :=
      ElementType.ofField_settles noMap
    cases typed : ElementType.ofField table source field.name field with
    | ok element =>
      rw [typed] at settles
      exact settles
    | error fault =>
      rw [typed] at settles
      exact settles

end FieldType

end ProtoTypings
