import ProtoTypings.Proofs.ImportOrder

set_option autoImplicit false
set_option relaxedAutoImplicit false

/-!
What the mapping of a field or of a method's message does to the imports collected so far. A mapping
that fails leaves them as they were, although the values of a map are mapped after its keys and with
the same imports. One that succeeds lists at most one more module, that of the only symbol it refers
to.
-/

namespace ProtoTypings.Imports

/-- What may happen to a collector while type names, at most one, are referred to: no more than one
module is listed, which is that of a symbol with such a name, and afterwards all the names can be
spelled. -/
structure Records (table : SymbolTable) (source : Text) (names : List Text)
    (before after : Imports) : Prop where
  growth : ∃ added, after.entries = before.entries ++ added ∧ added.length ≤ 1 ∧
    ∀ entry ∈ added, ∃ name ∈ names, ∃ symbol, table.find? name = some symbol ∧
      entry.path = Path.importPath source symbol.file table.importStyle
  provided : ∀ name ∈ names, ∃ target, table.resolve name source = .ok target ∧
    after.Provides target

section

variable {table : SymbolTable} {source : Text}

private theorem records_nothing (imports : Imports) : Records table source [] imports imports :=
  ⟨⟨[], (List.append_nil _).symm, Nat.zero_le 1, by simp⟩, by simp⟩

private theorem records_add (imports : Imports) {name : Text} {target : Resolution}
    (resolved : table.resolve name source = .ok target) :
    Records table source [name] imports (imports.add target) := by
  refine ⟨?_, fun other member => ?_⟩
  · obtain ⟨found, -, path⟩ := SymbolTable.resolve_eq_ok resolved
    rcases add_cases imports target with ⟨same, -⟩ | ⟨-, pushed⟩
    · exact ⟨[], by rw [same, List.append_nil], Nat.zero_le 1, by simp⟩
    · refine ⟨[⟨imports.freeName target.importName, target.importPath⟩], by rw [pushed]; rfl,
        Nat.le_refl 1, fun entry member => ?_⟩
      obtain rfl := List.mem_singleton.mp member
      exact ⟨name, List.mem_singleton_self name, target.toSymbol, found, path⟩
  · obtain rfl := List.mem_singleton.mp member
    exact ⟨target, resolved, provides_add imports target⟩

private theorem records_fieldType (imports : Imports) {field : Schema.Field} {type : FieldType}
    (typed : FieldType.ofField table source field = .ok type) :
    Records table source field.typeNames imports (imports.addAll type.reference?.toList) := by
  have resolved := FieldType.forall₂_ofField typed
  cases reference : type.reference? with
  | none =>
    rw [reference] at resolved
    rw [List.forall₂_nil_right_iff.mp resolved]
    exact records_nothing imports
  | some target =>
    rw [reference] at resolved
    obtain ⟨name, names, named, rest, same⟩ := List.forall₂_cons_right_iff.mp resolved
    rw [same, List.forall₂_nil_right_iff.mp rest]
    exact records_add imports named

private theorem mapField_cases (imports : Imports) (table : SymbolTable) (source : Text)
    (field : Schema.Field) :
    (∃ fault, imports.mapField table source field = (.error fault, imports)) ∨
    ∃ type text, FieldType.ofField table source field = .ok type ∧
      imports.mapField table source field = (.ok text, imports.addAll type.reference?.toList) := by
  rw [mapField, recordField_eq]
  cases typed : FieldType.ofField table source field with
  | error fault => exact Or.inl ⟨fault, rfl⟩
  | ok type => exact Or.inr ⟨type, _, rfl, rfl⟩

private theorem mapMessage_cases (imports : Imports) (table : SymbolTable) (source name : Text) :
    (∃ fault, imports.mapMessage table source name = (.error fault, imports)) ∨
    ∃ target text, table.resolve name source = .ok target ∧
      imports.mapMessage table source name = (.ok text, imports.add target) := by
  rw [mapMessage]
  cases resolved : table.resolveMessage name source with
  | error fault => exact Or.inl ⟨fault, rfl⟩
  | ok target =>
    exact Or.inr ⟨target, _, (SymbolTable.resolveMessage_eq_ok resolved).1, rfl⟩

end

/-- A failed mapping records nothing: the collector is the one before, with its list, its used names
and its names for modules. A successful one lists at most one module, that of the symbol which the
field, its map values or the method's type name refers to. -/
theorem mapping_atomic (imports : Imports) (table : SymbolTable) (source : Text) :
    (∀ field fault, (imports.mapField table source field).1 = .error fault →
      (imports.mapField table source field).2 = imports) ∧
    (∀ name fault, (imports.mapMessage table source name).1 = .error fault →
      (imports.mapMessage table source name).2 = imports) ∧
    (∀ field type, (imports.mapField table source field).1 = .ok type →
      Records table source field.typeNames imports (imports.mapField table source field).2) ∧
    ∀ name text, (imports.mapMessage table source name).1 = .ok text →
      Records table source [name] imports (imports.mapMessage table source name).2 := by
  refine ⟨fun field fault failed => ?_, fun name fault failed => ?_, fun field type made => ?_,
    fun name text made => ?_⟩
  · rcases mapField_cases imports table source field with ⟨_, mapped⟩ | ⟨_, _, -, mapped⟩
    · rw [mapped]
    · rw [mapped] at failed
      cases failed
  · rcases mapMessage_cases imports table source name with ⟨_, mapped⟩ | ⟨_, _, -, mapped⟩
    · rw [mapped]
    · rw [mapped] at failed
      cases failed
  · rcases mapField_cases imports table source field with ⟨_, mapped⟩ | ⟨_, _, typed, mapped⟩
    · rw [mapped] at made
      cases made
    · rw [mapped]
      exact records_fieldType imports typed
  · rcases mapMessage_cases imports table source name with ⟨_, mapped⟩ | ⟨_, _, resolved, mapped⟩
    · rw [mapped] at made
      cases made
    · rw [mapped]
      exact records_add imports resolved

def depotTable : SymbolTable where
  symbols := [⟨".d.Box", "d.proto", "Box", .message⟩, ⟨".d.Size", "d.proto", "Size", .enum⟩]

def depotField (typeName : Text) : Schema.Field where
  name := "stock"
  kind := .map
  map := some ⟨some { kind := .scalar .string }, some { kind := .message, typeName }⟩

/-- The values of a map cannot be an enum that is said to be a message, and no method takes one;
a message is imported from its module. -/
theorem mapping_atomic_depot :
    let imports := fixed ⟨true, ["d_pb"], []⟩ "jspb" "google-protobuf"
    let unmapped := imports.mapField depotTable "m.proto" (depotField ".d.Size")
    let mapped := imports.mapField depotTable "m.proto" (depotField ".d.Box")
    let uncallable := imports.mapMessage depotTable "m.proto" ".d.Size"
    unmapped.1 = .error (.unsupported "stock" .message (.notMessage ".d.Size")) ∧
      unmapped.2 = imports ∧
      uncallable.1 = .error (.unsupported ".d.Size" .enum .notCallable) ∧
      uncallable.2 = imports ∧
      mapped.2.entries = imports.entries ++ [⟨"d_pb_1", "./d_pb"⟩] ∧
      Records depotTable "m.proto" [".d.Box"] imports mapped.2 ∧
      Records depotTable "m.proto" [".d.Box"] imports
        (imports.mapMessage depotTable "m.proto" ".d.Box").2 := by
  intro imports unmapped mapped uncallable
  obtain ⟨fieldFails, nameFails, fieldMade, nameMade⟩ :=
    mapping_atomic imports depotTable "m.proto"
  have unmappedFails : unmapped.1 = .error (.unsupported "stock" .message (.notMessage ".d.Size")) :=
    rfl
  have uncallableFails : uncallable.1 = .error (.unsupported ".d.Size" .enum .notCallable) := rfl
  exact ⟨unmappedFails, fieldFails _ _ unmappedFails, uncallableFails,
    nameFails _ _ uncallableFails, by decide +kernel,
    fieldMade (depotField ".d.Box") _ rfl, nameMade ".d.Box" _ rfl⟩

end ProtoTypings.Imports
