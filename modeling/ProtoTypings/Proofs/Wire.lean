import Mathlib.Algebra.Group.Nat.Defs
import ProtoTypings.Wire.Record

set_option autoImplicit false
set_option relaxedAutoImplicit false

/-!
Written fields are read back. A number comes back from its shortest spelling whatever follows it, if
it has at most 64 bits, and is refused if it has more. So a record splits at the ends of its fields,
although the bytes in them may look like fields themselves.
-/

namespace ProtoTypings.Wire

/-- The least number that has more than 64 bits. -/
def varintLimit : Nat := 0x10000000000000000

private theorem toNat_toUInt8 {n : Nat} (small : n < 256) : n.toUInt8.toNat = n := by
  simp [Nat.mod_eq_of_lt small]

/-- From `place` on, the tenth byte holds one bit and each byte before it holds seven. -/
private theorem readVarintAt_writeVarint {place : Nat} (within : place ≤ 9) (n : Nat)
    (rest : Text) : readVarintAt place (writeVarint n ++ rest) =
      if n < 2 * 128 ^ (9 - place) then some (n, rest) else none := by
  induction n using Nat.strongRecOn generalizing place with
  | ind n ih =>
    rw [writeVarint]
    by_cases single : n < 128
    · have byte : n.toUInt8.toNat = n := toNat_toUInt8 (by omega)
      rw [if_pos single, List.singleton_append, readVarintAt]
      simp only [UInt8.le_iff_toNat_le, UInt8.lt_iff_toNat_lt, byte]
      by_cases last : place = 9
      · simp only [last, ↓reduceIte, UInt8.reduceToNat, Nat.sub_self, Nat.pow_zero]
        split <;> split <;> first | rfl | omega
      · have room : 128 ≤ 128 ^ (9 - place) :=
          Nat.le_self_pow (by omega) 128
        simp [last, single, show n < 2 * 128 ^ (9 - place) by omega]
    · have byte : (n % 128 + 128).toUInt8.toNat = n % 128 + 128 := toNat_toUInt8 (by omega)
      rw [if_neg single, List.cons_append, readVarintAt]
      simp only [UInt8.le_iff_toNat_le, UInt8.lt_iff_toNat_lt, byte]
      by_cases last : place = 9
      · subst last
        simp [show ¬n < 2 by omega]
      · have room : 128 ^ (9 - place) = 128 ^ (9 - (place + 1)) * 128 := by
          rw [← Nat.pow_succ]
          congr 1
          omega
        rw [if_neg last, if_neg (by simp), ih (n / 128) (by omega) (by omega), room]
        by_cases fits : n / 128 < 2 * 128 ^ (9 - (place + 1))
        · rw [if_pos fits, if_pos (by omega)]
          simp only [Option.some.injEq, Prod.mk.injEq, and_true]
          omega
        · rw [if_neg fits, if_neg (by omega)]

private theorem readVarint_writeVarint (n : Nat) (rest : Text) :
    readVarint (writeVarint n ++ rest) = if n < varintLimit then some (n, rest) else none :=
  readVarintAt_writeVarint (Nat.zero_le 9) n rest

private theorem writeVarint_ne_nil (n : Nat) : writeVarint n ≠ [] := by
  rw [writeVarint]
  split <;> simp

/-- A tag that can stand in front of a field. -/
structure Tag.Valid (tag : Tag) : Prop where
  number_pos : 0 < tag.number
  number_le : tag.number ≤ maxNumber
  form_lt : tag.form < 8

private theorem readTag_writeTag {tag : Tag} (valid : tag.Valid) (rest : Text) :
    readTag maxNumber (writeTag tag ++ rest) = some (tag, rest) := by
  obtain ⟨positive, bounded, form⟩ := valid
  have small : tag.number * 8 + tag.form < varintLimit := by
    simp only [maxNumber, varintLimit] at bounded ⊢
    omega
  have number : (tag.number * 8 + tag.form) / 8 = tag.number := by omega
  have kept : (tag.number * 8 + tag.form) % 8 = tag.form := by omega
  rw [readTag, writeTag, readVarint_writeVarint, if_pos small]
  simp only [number, kept]
  rw [if_neg (by simp; omega)]

private theorem readBytes_append (content rest : Text) :
    readBytes content.length (content ++ rest) = some (content, rest) := by
  simp [readBytes]

private theorem readField_writeTag {tag : Tag} (valid : tag.Valid)
    (noGroup : tag.form ≠ Tag.openForm) (rest : Text) :
    readField (writeTag tag ++ rest) =
      (readPayload tag.form rest).map fun read => (⟨tag.number, read.1⟩, read.2) := by
  simp only [readField, readTag_writeTag valid, if_neg noGroup]
  cases readPayload tag.form rest <;> rfl

private theorem readField_writeNumber {number : Nat} (valid : Tag.Valid ⟨number, Tag.numberForm⟩)
    (value : Nat) (rest : Text) :
    readField (writeNumber number value ++ rest) =
      if value < varintLimit then some (⟨number, .number value⟩, rest) else none := by
  have noGroup : Tag.numberForm ≠ Tag.openForm := by decide
  rw [writeNumber, List.append_assoc, readField_writeTag valid noGroup]
  by_cases fits : value < varintLimit
  · simp [Tag.numberForm, readPayload, readVarint_writeVarint, fits]
  · simp [Tag.numberForm, readPayload, readVarint_writeVarint, fits]

private theorem readField_writeBytes {number : Nat} (valid : Tag.Valid ⟨number, Tag.bytesForm⟩)
    (content rest : Text) :
    readField (writeBytes number content ++ rest) =
      if content.length < varintLimit then some (⟨number, .bytes content⟩, rest) else none := by
  have noGroup : Tag.bytesForm ≠ Tag.openForm := by decide
  rw [writeBytes, List.append_assoc, List.append_assoc, readField_writeTag valid noGroup]
  by_cases fits : content.length < varintLimit
  · simp [Tag.bytesForm, readPayload, readVarint_writeVarint, readBytes_append, fits]
  · simp [Tag.bytesForm, readPayload, readVarint_writeVarint, fits]

@[simp] theorem scan_nil : scan [] = ⟨[], true⟩ := by
  rw [scan, if_pos rfl]

private theorem scan_of_readField {s rest : Text} {field : Field}
    (read : readField s = some (field, rest)) :
    scan s = ⟨field :: (scan rest).fields, (scan rest).complete⟩ := by
  have nonempty : s ≠ [] := by
    rintro rfl
    exact Nat.not_lt_zero _ (readField_length read)
  rw [scan, if_neg nonempty]
  split
  · rename_i again
    obtain ⟨rfl, rfl⟩ := Prod.mk.inj (Option.some.inj (read.symm.trans again))
    rfl
  · rename_i refused
    cases read.symm.trans refused

private theorem scan_of_refused {s : Text} (nonempty : s ≠ []) (refused : readField s = none) :
    scan s = ⟨[], false⟩ := by
  rw [scan, if_neg nonempty]
  split
  · rename_i read
    cases read.symm.trans refused
  · rfl

theorem scan_writeNumber {number : Nat} (valid : Tag.Valid ⟨number, Tag.numberForm⟩) {value : Nat}
    (fits : value < varintLimit) (rest : Text) :
    scan (writeNumber number value ++ rest) =
      ⟨⟨number, .number value⟩ :: (scan rest).fields, (scan rest).complete⟩ :=
  scan_of_readField (by rw [readField_writeNumber valid, if_pos fits])

theorem scan_writeBytes {number : Nat} (valid : Tag.Valid ⟨number, Tag.bytesForm⟩) {content : Text}
    (fits : content.length < varintLimit) (rest : Text) :
    scan (writeBytes number content ++ rest) =
      ⟨⟨number, .bytes content⟩ :: (scan rest).fields, (scan rest).complete⟩ :=
  scan_of_readField (by rw [readField_writeBytes valid, if_pos fits])

private theorem scan_writeBytes_of_long {number : Nat} (valid : Tag.Valid ⟨number, Tag.bytesForm⟩)
    {content : Text} (long : ¬content.length < varintLimit) (rest : Text) :
    scan (writeBytes number content ++ rest) = ⟨[], false⟩ := by
  refine scan_of_refused ?_ (by rw [readField_writeBytes valid, if_neg long])
  simp [writeBytes, writeTag, writeVarint_ne_nil]

theorem scan_flatMap_writeBytes {number : Nat} (valid : Tag.Valid ⟨number, Tag.bytesForm⟩)
    (contents : List Text) :
    scan (contents.flatMap (writeBytes number)) =
      ⟨(contents.takeWhile fun content => content.length < varintLimit).map
          fun content => ⟨number, .bytes content⟩,
        contents.all fun content => content.length < varintLimit⟩ := by
  induction contents with
  | nil => simp
  | cons content rest ih =>
    rw [List.flatMap_cons]
    by_cases fits : content.length < varintLimit
    · simp [scan_writeBytes valid fits, ih, fits]
    · simp [scan_writeBytes_of_long valid fits, fits]

@[simp] theorem bytesOf_cons_bytes (number n : Nat) (content : Text) (rest : List Field) :
    bytesOf number (⟨n, .bytes content⟩ :: rest) =
      if n = number then content :: bytesOf number rest else bytesOf number rest := by
  by_cases same : n = number <;> simp [bytesOf, same]

@[simp] theorem bytesOf_cons_number (number n value : Nat) (rest : List Field) :
    bytesOf number (⟨n, .number value⟩ :: rest) = bytesOf number rest := rfl

@[simp] theorem numbersOf_cons_number (number n value : Nat) (rest : List Field) :
    numbersOf number (⟨n, .number value⟩ :: rest) =
      if n = number then value :: numbersOf number rest else numbersOf number rest := by
  by_cases same : n = number <;> simp [numbersOf, same]

@[simp] theorem numbersOf_cons_bytes (number n : Nat) (content : Text) (rest : List Field) :
    numbersOf number (⟨n, .bytes content⟩ :: rest) = numbersOf number rest := rfl

section

variable {α : Type} (number n : Nat) (content : α → Text) (xs : List α)

@[simp] theorem bytesOf_map_bytes :
    bytesOf number (xs.map fun x => ⟨n, .bytes (content x)⟩) =
      if n = number then xs.map content else [] := by
  induction xs with
  | nil => simp [bytesOf]
  | cons x xs ih =>
    rw [List.map_cons, bytesOf_cons_bytes, ih]
    split <;> rfl

@[simp] theorem numbersOf_map_bytes :
    numbersOf number (xs.map fun x => ⟨n, .bytes (content x)⟩) = [] := by
  induction xs with
  | nil => rfl
  | cons x xs ih => simp [ih]

end

private theorem checkFields_eq_ok {check : Field → Except Flaw Unit} {fields : List Field} :
    checkFields check fields = .ok () ↔ ∀ field ∈ fields, check field = .ok () := by
  induction fields with
  | nil => simp [checkFields]
  | cons field rest ih =>
    rw [checkFields]
    split
    · rename_i passed
      simp [ih, passed]
    · rename_i refused
      simp [refused]

theorem checkForm_succ_eq_ok {depth : Nat} {kind : RecordKind} {s : Text} :
    checkForm (depth + 1) kind s = .ok () ↔
      (∀ field ∈ (scan s).fields, checkField (checkForm depth) kind field = .ok ()) ∧
        (scan s).complete = true := by
  rw [← checkFields_eq_ok, checkForm]
  cases checkFields (checkField (checkForm depth) kind) (scan s).fields with
  | ok _ => simp
  | error flaw => simp

/-- A kind of record in which nothing must be set, however deep. -/
def RecordKind.RequiresNothing (kind : RecordKind) : Prop :=
  ∀ depth s, firstNotSet? depth kind s = none

private theorem RecordKind.RequiresNothing.of_slots {kind : RecordKind}
    (slots : ∀ slot ∈ kind.slots.map Prod.snd,
      slot = .numbers ∨ ∃ nested : RecordKind, slot = .record nested ∧ nested.RequiresNothing) :
    kind.RequiresNothing := by
  intro depth s
  cases depth with
  | zero => rfl
  | succ depth =>
    rw [firstNotSet?, List.findSome?_eq_none_iff]
    rintro ⟨number, slot⟩ member
    rcases slots slot (List.mem_map_of_mem member) with rfl | ⟨nested, rfl, nothing⟩
    · rfl
    · exact List.findSome?_eq_none_iff.mpr fun content _ => nothing depth content

theorem requiresNothing_response : RecordKind.response.RequiresNothing := by
  have span : RecordKind.annotatedSpan.RequiresNothing :=
    .of_slots (by simp [RecordKind.slots])
  have info : RecordKind.generatedInfo.RequiresNothing :=
    .of_slots (by simp [RecordKind.slots, span])
  have file : RecordKind.outputFile.RequiresNothing :=
    .of_slots (by simp [RecordKind.slots, info])
  exact .of_slots (by simp [RecordKind.slots, file])

end ProtoTypings.Wire
