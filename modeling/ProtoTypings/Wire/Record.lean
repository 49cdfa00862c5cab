import ProtoTypings.Wire.Field

set_option autoImplicit false
set_option relaxedAutoImplicit false

/-!
The kinds of records in a code generator request and in its response: which of their fields hold
further records or packed numbers, and which must be set. Every record is checked as a whole before
anything is taken from it.
-/

namespace ProtoTypings.Wire

inductive RecordKind where
  | request
  | version
  | file
  | message
  | field
  | oneof
  | range
  | extensionRange
  | enum
  | enumValue
  | service
  | method
  | options
  | uninterpretedOption
  | namePart
  | sourceInfo
  | location
  | response
  | outputFile
  | generatedInfo
  | annotatedSpan
  deriving DecidableEq, Repr

/-- What a record's kind says of one of its fields. -/
inductive Slot where
  /-- Numbers, one by one or packed together. -/
  | numbers
  /-- A record of its own. -/
  | record (kind : RecordKind)
  /-- A text that must be set. -/
  | requiredText (name : String)
  /-- A number that must be set. -/
  | requiredNumber (name : String)
  deriving DecidableEq, Repr

/-- The fields of a kind of record that need a closer look, by ascending number. All others are
plain texts and numbers. -/
def RecordKind.slots : RecordKind → List (Nat × Slot)
  | .request => [(3, .record .version), (15, .record .file), (17, .record .file)]
  | .file =>
    [(4, .record .message), (5, .record .enum), (6, .record .service), (7, .record .field),
      (8, .record .options), (9, .record .sourceInfo), (10, .numbers), (11, .numbers)]
  | .message =>
    [(2, .record .field), (3, .record .message), (4, .record .enum), (5, .record .extensionRange),
      (6, .record .field), (7, .record .options), (8, .record .oneof), (9, .record .range)]
  | .field => [(8, .record .options)]
  | .oneof => [(2, .record .options)]
  | .extensionRange => [(3, .record .options)]
  | .enum => [(2, .record .enumValue), (3, .record .options), (4, .record .range)]
  | .enumValue => [(3, .record .options)]
  | .service => [(2, .record .method), (3, .record .options)]
  | .method => [(4, .record .options)]
  | .options => [(999, .record .uninterpretedOption)]
  | .uninterpretedOption => [(2, .record .namePart)]
  | .namePart =>
    [(1, .requiredText "google.protobuf.UninterpretedOption.NamePart.name_part"),
      (2, .requiredNumber "google.protobuf.UninterpretedOption.NamePart.is_extension")]
  | .sourceInfo => [(1, .record .location)]
  | .location => [(1, .numbers), (2, .numbers)]
  | .response => [(15, .record .outputFile)]
  | .outputFile => [(16, .record .generatedInfo)]
  | .generatedInfo => [(1, .record .annotatedSpan)]
  | .annotatedSpan => [(1, .numbers)]
  | .version | .range => []

inductive Flaw where
  /-- The bytes are no sequence of fields. -/
  | malformed
  /-- Records are nested too deeply. -/
  | tooDeep
  /-- A field that must be set is not. -/
  | notSet (name : Text)
  deriving DecidableEq, Repr

def maxDepth : Nat := 10000

/-- Checks one field: a record inside it by `inner`, packed numbers by reading them. -/
def checkField (inner : RecordKind → Text → Except Flaw Unit) (kind : RecordKind)
    (field : Field) : Except Flaw Unit :=
  match kind.slots.lookup field.number, field.payload with
  | some (.record nested), .bytes content => inner nested content
  | some .numbers, .bytes content =>
    if (readVarints content).isSome then .ok () else .error .malformed
  | _, _ => .ok ()

def checkFields (check : Field → Except Flaw Unit) : List Field → Except Flaw Unit
  | [] => .ok ()
  | field :: rest =>
    match check field with
    | .ok () => checkFields check rest
    | .error flaw => .error flaw

/-- Checks that a record and all records inside it can be read, to the given depth. -/
def checkForm : (depth : Nat) → RecordKind → Text → Except Flaw Unit
  | 0, _, _ => .error .tooDeep
  | depth + 1, kind, s =>
    let scanned := scan s
    match checkFields (checkField (checkForm depth) kind) scanned.fields with
    | .ok () => if scanned.complete then .ok () else .error .malformed
    | .error flaw => .error flaw

/-- The first required field that is not set, fields taken by ascending number and records inside a
field before the next field. -/
def firstNotSet? : (depth : Nat) → RecordKind → Text → Option Text
  | 0, _, _ => none
  | depth + 1, kind, s =>
    let record := fields s
    kind.slots.findSome? fun (number, slot) =>
      match slot with
      | .requiredText name => if (bytesOf number record).isEmpty then some name else none
      | .requiredNumber name => if (numbersOf number record).isEmpty then some name else none
      | .record nested => (bytesOf number record).findSome? (firstNotSet? depth nested)
      | .numbers => none

def readRecord (kind : RecordKind) (s : Text) : Except Flaw (List Field) :=
  match checkForm maxDepth kind s with
  | .error flaw => .error flaw
  | .ok () =>
    match firstNotSet? maxDepth kind s with
    | some name => .error (.notSet name)
    | none => .ok (fields s)

end ProtoTypings.Wire
