import Mathlib.Data.List.Basic
import ProtoTypings.Proofs.Result
import ProtoTypings.Schema.OfDescriptor

set_option autoImplicit false
set_option relaxedAutoImplicit false

/-!
How a single field is converted: it is copied from its descriptor, its oneof is looked up, and if it
stands for a map entry, that entry is folded into it. Each of these steps is given once as what it
makes and once as when it succeeds.
-/

namespace ProtoTypings

def IsLast {α : Type} (P : α → Prop) (xs : List α) (x : α) : Prop :=
  ∃ before after, xs = before ++ x :: after ∧ P x ∧ ∀ y ∈ after, ¬P y

theorem IsLast.mem {α : Type} {P : α → Prop} {xs : List α} {x : α} (last : IsLast P xs x) :
    x ∈ xs := by
  obtain ⟨before, after, rfl, -⟩ := last
  exact List.mem_append_right before List.mem_cons_self

theorem IsLast.holds {α : Type} {P : α → Prop} {xs : List α} {x : α} (last : IsLast P xs x) :
    P x := by
  obtain ⟨-, -, -, holds, -⟩ := last
  exact holds

theorem findRev?_eq_some_iff {α : Type} {p : α → Bool} {xs : List α} {x : α} :
    xs.findRev? p = some x ↔ IsLast (p · = true) xs x := by
  rw [List.findRev?_eq_find?_reverse, List.find?_eq_some_iff_append]
  constructor
  · rintro ⟨holds, after, before, reversed, none⟩
    refine ⟨before.reverse, after.reverse, ?_, holds, fun y member => ?_⟩
    · rw [← List.reverse_reverse xs, reversed]
      simp
    · simpa using none y (List.mem_reverse.mp member)
  · rintro ⟨before, after, rfl, holds, none⟩
    refine ⟨holds, after.reverse, before.reverse, by simp, fun y member => ?_⟩
    simpa using none y (List.mem_reverse.mp member)

private theorem findRev?_decide_eq_some_iff {α : Type} {P : α → Prop} [DecidablePred P]
    {xs : List α} {x : α} : xs.findRev? (fun y => decide (P y)) = some x ↔ IsLast P xs x := by
  rw [findRev?_eq_some_iff]
  simp only [decide_eq_true_eq]

theorem exists_isLast_iff {α : Type} {P : α → Prop} {xs : List α} :
    (∃ x, IsLast P xs x) ↔ ∃ x ∈ xs, P x := by
  classical
  simp only [← findRev?_decide_eq_some_iff, ← Option.isSome_iff_exists,
    List.findRev?_eq_find?_reverse, List.find?_isSome, List.mem_reverse, decide_eq_true_eq]

namespace Schema

theorem exists_at?_iff {α : Type} {xs : List α} {index : Int} :
    (∃ x, at? xs index = some x) ↔ 0 ≤ index ∧ index < xs.length := by
  cases index with
  | ofNat n =>
    have inside : (∃ x, at? xs (Int.ofNat n) = some x) ↔ n < xs.length := by
      simp [at?, List.getElem?_eq_some_iff]
    rw [inside, Int.ofNat_eq_natCast, Int.ofNat_lt]
    exact (and_iff_right (Int.natCast_nonneg n)).symm
  | negSucc n =>
    have outside : ¬0 ≤ Int.negSucc n := by omega
    simp [at?, outside]

theorem exists_oneofOf_iff {oneofs : List Oneof} {raw : Descriptor.Field} :
    (∃ oneof, oneofOf oneofs raw = .ok oneof) ↔
      ∀ index, raw.oneofIndex = some index → 0 ≤ index ∧ index < oneofs.length := by
  rw [oneofOf]
  cases set : raw.oneofIndex with
  | none => simp
  | some index =>
    simp only [Option.some.injEq, forall_eq', ← exists_at?_iff]
    cases at? oneofs index <;> simp

private theorem oneofOf_nil_eq_ok {raw : Descriptor.Field} {oneof : Option Oneof} :
    oneofOf [] raw = .ok oneof ↔ raw.oneofIndex = none ∧ oneof = none := by
  rw [oneofOf]
  cases raw.oneofIndex with
  | none => simp [eq_comm]
  | some index => cases index <;> simp [at?]

private theorem FieldKind.ofType_eq_message {type : Int} : ofType type = .message ↔ type = 11 := by
  constructor
  · intro same
    by_contra other
    unfold ofType at same
    split at same <;> simp at same other
  · rintro rfl
    rfl

private theorem FieldKind.ofType_ne_map (type : Int) : ofType type ≠ .map := by
  unfold ofType
  split <;> exact FieldKind.noConfusion

theorem Cardinality.ofLabel_eq_repeated {label : Int} : ofLabel label = .repeated ↔ label = 3 := by
  unfold ofLabel
  split
  · rename_i required
    simp [required]
  · split
    · rename_i repeated
      simp [repeated]
    · rename_i optional
      simp [optional]

namespace Field

/-- A field with everything that its descriptor says, and with the given oneof and comment. -/
def copy (oneof : Option Oneof) (comments : Text) (raw : Descriptor.Field) : Field where
  name := raw.name
  number := raw.number
  kind := (raw.type.map FieldKind.ofType).getD .invalid
  cardinality := .ofLabel raw.label
  typeName := raw.typeName
  oneof
  proto3Optional := raw.proto3Optional
  jsType := .ofCode raw.jsType
  extendee := raw.extendee
  comments

theorem plain_eq_map (oneofs : List Oneof) (comments : Text) (raw : Descriptor.Field) :
    Field.plain oneofs comments raw = (oneofOf oneofs raw).map (copy · comments raw) := by
  rw [Field.plain]
  cases oneofOf oneofs raw <;> rfl

theorem plain_nil_eq_ok {comments : Text} {raw : Descriptor.Field} {field : Field} :
    Field.plain [] comments raw = .ok field ↔
      raw.oneofIndex = none ∧ field = copy none comments raw := by
  rw [plain_eq_map, Result.map_eq_ok]
  constructor
  · rintro ⟨oneof, found, rfl⟩
    obtain ⟨bare, rfl⟩ := oneofOf_nil_eq_ok.mp found
    exact ⟨bare, rfl⟩
  · rintro ⟨bare, rfl⟩
    exact ⟨none, oneofOf_nil_eq_ok.mpr ⟨bare, rfl⟩, rfl⟩

private theorem kind_copy_eq_message {oneof : Option Oneof} {comments : Text}
    {raw : Descriptor.Field} : (copy oneof comments raw).kind = .message ↔ raw.type = some 11 := by
  cases type : raw.type with
  | none => simp [copy, type]
  | some code =>
    have kind : (copy oneof comments raw).kind = .ofType code := by simp [copy, type]
    rw [kind, FieldKind.ofType_eq_message, Option.some.injEq]

theorem kind_copy_ne_map (oneof : Option Oneof) (comments : Text) (raw : Descriptor.Field) :
    (copy oneof comments raw).kind ≠ .map := by
  cases type : raw.type with
  | none => simp [copy, type]
  | some code =>
    have kind : (copy oneof comments raw).kind = .ofType code := by simp [copy, type]
    rw [kind]
    exact FieldKind.ofType_ne_map code

end Field

/-- The map entry that a field of a message stands for: the field is repeated (label 3), holds
messages (type 11) and names the entry. -/
def entryOf? (findEntry : Text → Option Descriptor.Message) (raw : Descriptor.Field) :
    Option Descriptor.Message :=
  if raw.label = 3 ∧ raw.type = some 11 then findEntry raw.typeName else none

theorem entryOf?_eq_some_iff {findEntry : Text → Option Descriptor.Message}
    {raw : Descriptor.Field} {entry : Descriptor.Message} :
    entryOf? findEntry raw = some entry ↔
      raw.label = 3 ∧ raw.type = some 11 ∧ findEntry raw.typeName = some entry := by
  rw [entryOf?, ← and_assoc]
  split
  · rename_i asked
    rw [and_iff_right asked]
  · rename_i other
    exact iff_of_false (by simp) fun asked => other asked.1

def Field.withMap (field : Field) (map : MapEntry Field) : Field :=
  { field with kind := .map, map := some map }

theorem Field.ofDescriptor_eq (oneofs : List Oneof)
    (findEntry : Text → Option Descriptor.Message) (comments : Text) (raw : Descriptor.Field) :
    Field.ofDescriptor oneofs findEntry comments raw =
      (oneofOf oneofs raw).bind fun oneof =>
        match entryOf? findEntry raw with
        | none => .ok (copy oneof comments raw)
        | some entry =>
          (MapEntry.ofDescriptor entry).map (copy oneof comments raw).withMap := by
  rw [Field.ofDescriptor, plain_eq_map]
  cases oneofOf oneofs raw with
  | error fault => rfl
  | ok oneof =>
    have asked : ((copy oneof comments raw).kind = .message &&
        (copy oneof comments raw).isRepeated : Bool) = true ↔
          raw.label = 3 ∧ raw.type = some 11 := by
      rw [Bool.and_eq_true, decide_eq_true_eq, kind_copy_eq_message, Field.isRepeated,
        decide_eq_true_eq, and_comm]
      exact and_congr_left fun _ => Cardinality.ofLabel_eq_repeated
    simp only [Except.map, Except.bind, entryOf?, asked]
    split
    · change (match findEntry raw.typeName with | none => _ | some entry => _) = _
      cases findEntry raw.typeName with
      | none => rfl
      | some entry =>
        dsimp only
        cases MapEntry.ofDescriptor entry <;> rfl
    · rfl

theorem Field.ofDescriptor_eq_ok_iff {oneofs : List Oneof}
    {findEntry : Text → Option Descriptor.Message} {comments : Text} {raw : Descriptor.Field}
    {field : Field} :
    Field.ofDescriptor oneofs findEntry comments raw = .ok field ↔
      ∃ oneof, oneofOf oneofs raw = .ok oneof ∧
        (entryOf? findEntry raw = none ∧ copy oneof comments raw = field ∨
          ∃ entry map, entryOf? findEntry raw = some entry ∧
            MapEntry.ofDescriptor entry = .ok map ∧
            (copy oneof comments raw).withMap map = field) := by
  rw [Field.ofDescriptor_eq]
  cases oneofOf oneofs raw with
  | error fault => simp [Except.bind]
  | ok oneof =>
    cases entryOf? findEntry raw with
    | none => simp [Except.bind]
    | some entry => simp [Except.bind, Result.map_eq_ok]

/-- A map entry with a full name among the messages nested in one with the given full name. -/
def IsEntryOf (fullName typeName : Text) (entry : Descriptor.Message) : Prop :=
  entry.mapEntry = true ∧ fullName ++ Text.dot :: entry.name = typeName

theorem findMapEntry_eq_some_iff {fullName typeName : Text} {nested : List Descriptor.Message}
    {entry : Descriptor.Message} :
    findMapEntry fullName nested typeName = some entry ↔
      IsLast (IsEntryOf fullName typeName) nested entry := by
  rw [findMapEntry, findRev?_eq_some_iff]
  simp only [Bool.and_eq_true, decide_eq_true_eq]
  rfl

theorem exists_findMapEntry_iff {fullName typeName : Text} {nested : List Descriptor.Message} :
    (∃ entry, findMapEntry fullName nested typeName = some entry) ↔
      ∃ entry ∈ nested, IsEntryOf fullName typeName entry := by
  simp only [findMapEntry_eq_some_iff, exists_isLast_iff]

private theorem mapM_plain_nil_eq_ok {raws : List Descriptor.Field} {fields : List Field} :
    raws.mapM (Field.plain [] []) = .ok fields ↔
      (∀ raw ∈ raws, raw.oneofIndex = none) ∧ fields = raws.map (Field.copy none []) := by
  rw [Result.mapM_eq_ok]
  simp only [Field.plain_nil_eq_ok, List.forall₂_and_left]
  rw [← List.forall₂_eq_eq_eq, List.forall₂_map_right_iff]
  exact and_congr_right fun _ => ⟨List.Forall₂.flip, List.Forall₂.flip⟩

private theorem findRev?_map_copy (p : Field → Bool) (raws : List Descriptor.Field) :
    (raws.map (Field.copy none [])).findRev? p =
      (raws.findRev? fun raw => p (Field.copy none [] raw)).map (Field.copy none []) := by
  rw [List.findRev?_eq_find?_reverse, List.findRev?_eq_find?_reverse, ← List.map_reverse,
    List.find?_map]
  rfl

/-- An entry is folded exactly if none of its fields is in a oneof and it has a key and a value,
which are its last fields with the numbers 1 and 2. -/
theorem MapEntry.ofDescriptor_eq_ok {entry : Descriptor.Message} {map : MapEntry Field} :
    MapEntry.ofDescriptor entry = .ok map ↔
      (∀ raw ∈ entry.fields, raw.oneofIndex = none) ∧
      ∃ key value, IsLast (·.number = 1) entry.fields key ∧
        IsLast (·.number = 2) entry.fields value ∧
        map = ⟨some (.copy none [] key), some (.copy none [] value)⟩ := by
  rw [MapEntry.ofDescriptor]
  split
  · rename_i fault failed
    refine iff_of_false (by simp) ?_
    rintro ⟨bare, -⟩
    rw [mapM_plain_nil_eq_ok.mpr ⟨bare, rfl⟩] at failed
    cases failed
  · rename_i fields made
    obtain ⟨bare, rfl⟩ := mapM_plain_nil_eq_ok.mp made
    rw [and_iff_right bare, findRev?_map_copy, findRev?_map_copy]
    simp only [← findRev?_decide_eq_some_iff, Option.isSome_map]
    have same (number : Int) :
        entry.fields.findRev? (fun raw => decide ((Field.copy none [] raw).number = number)) =
          entry.fields.findRev? fun raw => decide (raw.number = number) := rfl
    rw [same, same]
    cases entry.fields.findRev? fun raw => decide (raw.number = 1) with
    | none => simp
    | some key =>
      cases entry.fields.findRev? fun raw => decide (raw.number = 2) with
      | none => simp
      | some value => simp [eq_comm]

end Schema

end ProtoTypings
