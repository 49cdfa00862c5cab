import ProtoTypings.Text.Basic

set_option autoImplicit false
set_option relaxedAutoImplicit false

/-!
The settings that the environment may hold, and the booleans and 64-bit integers that they spell.
-/

namespace ProtoTypings

inductive Setting where
  | mode
  | importStyle
  | reserved
  | comments
  | parallel
  | verbose
  deriving DecidableEq, Repr

namespace Setting

def all : List Setting := [.mode, .importStyle, .reserved, .comments, .parallel, .verbose]

def bareVariable : Setting → Text
  | .mode => "MODE"
  | .importStyle => "IMPORT_STYLE"
  | .reserved => "RESERVED"
  | .comments => "COMMENTS"
  | .parallel => "PARALLEL"
  | .verbose => "VERBOSE"

/-- The variable of a setting, which wins over the bare one. -/
def ownVariable (setting : Setting) : Text := "PROTOC_GEN_TSD_" ++ setting.bareVariable

def label : Setting → Text
  | .mode => "Mode"
  | .importStyle => "ImportStyle"
  | .reserved => "Reserved"
  | .comments => "Comments"
  | .parallel => "Parallel"
  | .verbose => "Verbose"

def typeName : Setting → Text
  | .mode | .importStyle | .reserved => "string"
  | .comments | .parallel => "bool"
  | .verbose => "int"

end Setting

namespace Numeral

inductive Flaw where
  | invalidSyntax
  | outOfRange
  deriving DecidableEq, Repr

/-- The twelve spellings of a boolean. -/
def boolean? (s : Text) : Option Bool :=
  if s ∈ (["1", "t", "T", "TRUE", "true", "True"] : List String).map Text.ofString then some true
  else if s ∈ (["0", "f", "F", "FALSE", "false", "False"] : List String).map Text.ofString then
    some false
  else none

/-- The value of a digit in bases up to 36. -/
def digit? (b : UInt8) : Option Nat :=
  let lower := Ascii.toLower b
  if Ascii.isDigit b then some (b.toNat - 48)
  else if Ascii.isLower lower then some (lower.toNat - 87)
  else none

/-- Base and digits of an unsigned numeral: `0x`, `0o` and `0b` before at least one more character
choose the base, a bare leading `0` means octal. -/
def baseAndDigits : Text → Nat × Text
  | 48 :: mark :: c :: rest =>
    if Ascii.toLower mark = 98 then (2, c :: rest)
    else if Ascii.toLower mark = 111 then (8, c :: rest)
    else if Ascii.toLower mark = 120 then (16, c :: rest)
    else (8, mark :: c :: rest)
  | 48 :: rest => (8, rest)
  | s => (10, s)

/-- The least number that does not fit into 64 bits. -/
def wordLimit : Nat := 0x10000000000000000

/-- The least number that does not fit into 63 bits. -/
def halfWordLimit : Nat := 0x8000000000000000

/-- Adds digits to a value from left to right and skips underscores. The first foreign character or
the first digit that takes the value past 64 bits ends the reading. -/
def accumulate (base : Nat) : (value : Nat) → Text → Except Flaw Nat
  | value, [] => .ok value
  | value, b :: rest =>
    if b = Text.underscore then accumulate base value rest
    else match digit? b with
      | none => .error .invalidSyntax
      | some d =>
        if base ≤ d then .error .invalidSyntax
        else if wordLimit ≤ value * base + d then .error .outOfRange
        else accumulate base (value * base + d) rest

/-- Whether every underscore stands between two digits; `afterDigit` tells what came before. -/
def separatesDigits : (afterDigit : Bool) → Text → Bool
  | _, [] => true
  | afterDigit, b :: rest =>
    if b = Text.underscore then
      match rest with
      | [] => false
      | c :: _ => afterDigit && c ≠ Text.underscore && separatesDigits false rest
    else separatesDigits true rest

/-- Whether the underscores of an unsigned numeral are well placed. The mark of a base counts as a
digit. -/
def underscoresPlaced (s : Text) : Bool :=
  match s with
  | 48 :: mark :: rest =>
    if Ascii.toLower mark = 98 || Ascii.toLower mark = 111 || Ascii.toLower mark = 120 then
      separatesDigits true rest
    else separatesDigits true (mark :: rest)
  | _ => separatesDigits false s

/-- An unsigned numeral of at most 64 bits. -/
def unsigned (s : Text) : Except Flaw Nat := do
  if s = [] then throw .invalidSyntax
  let (base, digits) := baseAndDigits s
  let value ← accumulate base 0 digits
  if digits.contains Text.underscore && !underscoresPlaced s then throw .invalidSyntax
  return value

/-- A numeral with an optional sign that fits into a signed 64-bit word. -/
def signed (s : Text) : Except Flaw Int := do
  let (negative, magnitude) := match s with
    | 43 :: rest => (false, rest)
    | 45 :: rest => (true, rest)
    | _ => (false, s)
  let value ← unsigned magnitude
  if negative then
    if halfWordLimit < value then throw .outOfRange
    return -(value : Int)
  else
    if halfWordLimit ≤ value then throw .outOfRange
    return (value : Int)

end Numeral

end ProtoTypings
