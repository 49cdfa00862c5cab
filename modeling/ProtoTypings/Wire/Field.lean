import ProtoTypings.Wire.Varint

set_option autoImplicit false
set_option relaxedAutoImplicit false

/-!
The fields of an encoded record: each has a number and a payload, whose form the field's tag tells.
-/

namespace ProtoTypings.Wire

/-- What a field carries. The contents of groups and of words of fixed size are never looked at. -/
inductive Payload where
  | number (value : Nat)
  | bytes (content : Text)
  | word (content : Text)
  | group
  deriving DecidableEq, Repr

structure Field where
  number : Nat
  payload : Payload
  deriving DecidableEq, Repr

structure Tag where
  number : Nat
  form : Nat
  deriving DecidableEq, Repr

/-- The form of a field whose payload is a number. -/
def Tag.numberForm : Nat := 0

/-- The form of a field whose payload is a length and that many bytes. -/
def Tag.bytesForm : Nat := 2

def Tag.openForm : Nat := 3

def Tag.closeForm : Nat := 4

/-- The greatest number of a field: 29 bits, all set. -/
def maxNumber : Nat := 0x1FFFFFFF

/-- The greatest number of a field inside a group: 31 bits, all set. -/
def maxGroupedNumber : Nat := 0x7FFFFFFF

/-- How many groups may be open at once. -/
def maxOpenGroups : Nat := 10001

def writeTag (tag : Tag) : Text := writeVarint (tag.number * 8 + tag.form)

/-- Reads a tag with a field number from 1 to `greatest`. -/
def readTag (greatest : Nat) (s : Text) : Option (Tag × Text) :=
  match readVarint s with
  | some (n, rest) =>
    if n / 8 = 0 || greatest < n / 8 then none else some (⟨n / 8, n % 8⟩, rest)
  | none => none

def readBytes (count : Nat) (s : Text) : Option (Text × Text) :=
  if (s.take count).length = count then some (s.take count, s.drop count) else none

/-- Reads the payload of a field of the given form. Groups are read by `closeGroups`. -/
def readPayload (form : Nat) (s : Text) : Option (Payload × Text) :=
  match form with
  | 0 =>
    match readVarint s with
    | some (n, rest) => some (.number n, rest)
    | none => none
  | 1 =>
    match readBytes 8 s with
    | some (content, rest) => some (.word content, rest)
    | none => none
  | 2 =>
    match readVarint s with
    | some (count, rest) =>
      match readBytes count rest with
      | some (content, rest) => some (.bytes content, rest)
      | none => none
    | none => none
  | 5 =>
    match readBytes 4 s with
    | some (content, rest) => some (.word content, rest)
    | none => none
  | _ => none

private theorem readTag_length {greatest : Nat} {s rest : Text} {tag : Tag}
    (read : readTag greatest s = some (tag, rest)) : rest.length < s.length := by
  unfold readTag at read
  split at read
  · next n tail step =>
    split at read
    · simp at read
    · obtain ⟨-, rfl⟩ : _ ∧ tail = rest := by simpa using read
      exact readVarint_length step
  · simp at read

private theorem readBytes_length {count : Nat} {s content rest : Text}
    (read : readBytes count s = some (content, rest)) : rest.length ≤ s.length := by
  unfold readBytes at read
  split at read
  · obtain ⟨-, rfl⟩ : _ ∧ s.drop count = rest := by simpa using read
    simp
  · simp at read

private theorem readPayload_length {form : Nat} {s rest : Text} {payload : Payload}
    (read : readPayload form s = some (payload, rest)) : rest.length ≤ s.length := by
  unfold readPayload at read
  split at read
  · split at read
    · next step =>
      obtain ⟨-, rfl⟩ := by simpa using read
      exact Nat.le_of_lt (readVarint_length step)
    · simp at read
  · split at read
    · next step =>
      obtain ⟨-, rfl⟩ := by simpa using read
      exact readBytes_length step
    · simp at read
  · split at read
    · next count middle counted =>
      split at read
      · next step =>
        obtain ⟨-, rfl⟩ := by simpa using read
        exact Nat.le_trans (readBytes_length step) (Nat.le_of_lt (readVarint_length counted))
      · simp at read
    · simp at read
  · split at read
    · next step =>
      obtain ⟨-, rfl⟩ := by simpa using read
      exact readBytes_length step
    · simp at read
  · simp at read

/-- Skips to the end of the groups with the given numbers, the innermost first, and gives what
follows. -/
def closeGroups (opened : List Nat) (s : Text) : Option Text :=
  match opened with
  | [] => some s
  | innermost :: outer =>
    match _ : readTag maxGroupedNumber s with
    | none => none
    | some (tag, rest) =>
      if tag.form = Tag.closeForm then
        if tag.number = innermost then closeGroups outer rest else none
      else if tag.form = Tag.openForm then
        if outer.length + 1 < maxOpenGroups then closeGroups (tag.number :: innermost :: outer) rest
        else none
      else
        match _ : readPayload tag.form rest with
        | none => none
        | some (_, rest) => closeGroups (innermost :: outer) rest
termination_by s.length
decreasing_by
  · exact readTag_length (by assumption)
  · exact readTag_length (by assumption)
  · exact Nat.lt_of_le_of_lt (readPayload_length (by assumption)) (readTag_length (by assumption))

private theorem closeGroups_length {opened : List Nat} {s rest : Text}
    (closed : closeGroups opened s = some rest) : rest.length ≤ s.length := by
  fun_induction closeGroups opened s with
  | case3 _ _ _ _ tagRead _ ih =>
    exact Nat.le_trans (ih closed) (Nat.le_of_lt (readTag_length tagRead))
  | case5 _ _ _ _ _ tagRead _ _ _ ih =>
    exact Nat.le_trans (ih closed) (Nat.le_of_lt (readTag_length tagRead))
  | case8 _ _ _ _ _ tagRead _ _ _ _ payloadRead ih =>
    exact Nat.le_trans (ih closed)
      (Nat.le_trans (readPayload_length payloadRead) (Nat.le_of_lt (readTag_length tagRead)))
  | _ => simp_all

def readField (s : Text) : Option (Field × Text) :=
  match readTag maxNumber s with
  | none => none
  | some (tag, rest) =>
    if tag.form = Tag.openForm then
      match closeGroups [tag.number] rest with
      | some rest => some (⟨tag.number, .group⟩, rest)
      | none => none
    else
      match readPayload tag.form rest with
      | some (payload, rest) => some (⟨tag.number, payload⟩, rest)
      | none => none

theorem readField_length {s rest : Text} {field : Field}
    (read : readField s = some (field, rest)) : rest.length < s.length := by
  unfold readField at read
  split at read
  · simp at read
  · next tag middle tagRead =>
    have shorter := readTag_length tagRead
    split at read
    · split at read
      · next closed =>
        obtain ⟨-, rfl⟩ := by simpa using read
        exact Nat.lt_of_le_of_lt (closeGroups_length closed) shorter
      · simp at read
    · split at read
      · next payloadRead =>
        obtain ⟨-, rfl⟩ := by simpa using read
        exact Nat.lt_of_le_of_lt (readPayload_length payloadRead) shorter
      · simp at read

/-- The fields read from a record, and whether all of it could be read. -/
structure Scan where
  fields : List Field
  complete : Bool
  deriving DecidableEq, Repr

/-- Reads the fields of a record up to its end or to the first byte that starts no field. -/
def scan (s : Text) : Scan :=
  if s = [] then ⟨[], true⟩
  else match _ : readField s with
    | some (field, rest) => let more := scan rest; ⟨field :: more.fields, more.complete⟩
    | none => ⟨[], false⟩
termination_by s.length
decreasing_by exact readField_length (by assumption)

def fields (s : Text) : List Field := (scan s).fields

def writeNumber (number value : Nat) : Text :=
  writeTag ⟨number, Tag.numberForm⟩ ++ writeVarint value

def writeBytes (number : Nat) (content : Text) : Text :=
  writeTag ⟨number, Tag.bytesForm⟩ ++ writeVarint content.length ++ content

def bytesOf (number : Nat) (record : List Field) : List Text :=
  record.filterMap fun
    | ⟨n, .bytes content⟩ => if n = number then some content else none
    | _ => none

def numbersOf (number : Nat) (record : List Field) : List Nat :=
  record.filterMap fun
    | ⟨n, .number value⟩ => if n = number then some value else none
    | _ => none

/-- The value of a text field that may be set more than once: the last one counts. -/
def text? (number : Nat) (record : List Field) : Option Text := (bytesOf number record).getLast?

def text (number : Nat) (record : List Field) : Text := (text? number record).getD []

/-- The value of a number field that may be set more than once: the last one counts. -/
def number? (number : Nat) (record : List Field) : Option Nat := (numbersOf number record).getLast?

def int32? (number : Nat) (record : List Field) : Option Int := (number? number record).map signed32

/-- The value of a boolean field: set to anything but zero. -/
def flag (number : Nat) (record : List Field) : Bool := ((number? number record).getD 0) ≠ 0

/-- The records in the fields with a number, in order. -/
def recordsOf (number : Nat) (record : List Field) : List (List Field) :=
  (bytesOf number record).map fields

/-- A record that may be given in several pieces: they are merged by putting their fields
together. -/
def merged (number : Nat) (record : List Field) : List Field := (recordsOf number record).flatten

/-- The values of a repeated 32-bit field, whether they come one by one or packed together. -/
def int32s (number : Nat) (record : List Field) : List Int :=
  record.flatMap fun
    | ⟨n, .number value⟩ => if n = number then [signed32 value] else []
    | ⟨n, .bytes content⟩ =>
      if n = number then ((readVarints content).getD []).map signed32 else []
    | _ => []

end ProtoTypings.Wire
