import ProtoTypings.Data.Basic

set_option autoImplicit false
set_option relaxedAutoImplicit false

/-!
Structured values in YAML. A value becomes YAML by its line of JSON, which is read as a YAML
document. The two languages differ in three points. Some characters may not stand in a document. The
next-line character U+0085 ends a line, so that a quoted text with such characters is folded, and
must not look like the mark between two documents after one. Brackets nest only so deep.
-/

namespace ProtoTypings.Yaml

/-- Why a document cannot be read. A flaw with a place tells how many lines end before it. -/
inductive Flaw where
  | controlCharacter
  | documentMark (linesBefore : Nat)
  | tooDeep (linesBefore : Nat)
  deriving DecidableEq, Repr

def maxDepth : Nat := 10000

/-- Whether a text starts with a character that may not stand in a document: DELETE, an upper
control character other than U+0085, U+FFFE or U+FFFF. Lower control characters do not occur in
JSON. -/
def startsForbidden : Text → Bool
  | 0x7F :: _ => true
  | 0xC2 :: b :: _ => 0x80 ≤ b && b < 0xA0 && b != 0x85
  | 0xEF :: 0xBF :: b :: _ => b == 0xBE || b == 0xBF
  | _ => false

/-- The offset of the first character that may not stand in a document whose earlier part has been
passed. -/
def forbiddenFrom? (offset : Nat) : Text → Option Nat
  | [] => none
  | b :: rest =>
    if startsForbidden (b :: rest) then some offset else forbiddenFrom? (offset + 1) rest

/-- Whether a text starts with a mark between documents: three hyphens or three full stops before a
blank or the end of a line. -/
def startsMark : Text → Bool
  | 45 :: 45 :: 45 :: rest | 46 :: 46 :: 46 :: rest =>
    match rest with
    | 32 :: _ => true
    | 0xC2 :: b :: _ => b == 0x85
    | _ => false
  | _ => false

/-- Where the next byte of a document stands: outside quoted texts, in one, or after a backslash. -/
inductive Context where
  | outside
  | quoted (startsLine : Bool)
  | escape
  deriving DecidableEq, Repr

structure Position where
  offset : Nat := 0
  linesBefore : Nat := 0
  depth : Nat := 0
  context : Context := .outside
  deriving DecidableEq, Repr

/-- The flaw of a document at a position before the rest of it. -/
def Position.flaw? (position : Position) (rest : Text) : Option Flaw :=
  match position.context, rest with
  | .quoted true, rest =>
    if startsMark rest then some (.documentMark position.linesBefore) else none
  | .outside, b :: _ =>
    if (b = 91 || b = 123) && maxDepth ≤ position.depth then some (.tooDeep position.linesBefore)
    else none
  | _, _ => none

/-- The position after the end of a line. Lines end inside quoted texts only. -/
def Position.afterLine (position : Position) : Position :=
  { position with
    offset := position.offset + 2
    linesBefore := position.linesBefore + 1
    context := .quoted true }

def Position.afterByte (position : Position) (b : UInt8) : Position :=
  let position := { position with offset := position.offset + 1 }
  match position.context with
  | .escape => { position with context := .quoted false }
  | .quoted _ =>
    { position with
      context := if b = 34 then .outside else if b = 92 then .escape else .quoted false }
  | .outside =>
    if b = 34 then { position with context := .quoted false }
    else if b = 91 || b = 123 then { position with depth := position.depth + 1 }
    else if b = 93 || b = 125 then { position with depth := position.depth - 1 }
    else position

/-- The first flaw of a document after a position, with its offset. -/
def flawFrom? (position : Position) : Text → Option (Nat × Flaw)
  | [] => none
  | 0xC2 :: 0x85 :: rest => flawFrom? position.afterLine rest
  | b :: rest =>
    match position.flaw? (b :: rest) with
    | some flaw => some (position.offset, flaw)
    | none => flawFrom? (position.afterByte b) rest

/-- The number of bytes of the character that starts with a byte; zero for a later byte of one. -/
def characterWidth (b : UInt8) : Nat :=
  if b < 0x80 then 1 else if b < 0xC0 then 0 else if b < 0xE0 then 2 else if b < 0xF0 then 3 else 4

def portionSize : Nat := 512

/-- The number of the portion with the byte at an offset. Documents are read in portions, each of as
many whole characters as fit, and the portion before holds `filled` bytes. -/
def portionFrom : (number filled offset : Nat) → Text → Nat
  | number, _, _, [] => number
  | number, filled, offset, b :: rest =>
    let fits := filled + characterWidth b ≤ portionSize
    let number := if fits then number else number + 1
    match offset with
    | 0 => number
    | offset + 1 =>
      portionFrom number (if fits then filled + characterWidth b else characterWidth b) offset rest

def portionAt (document : Text) (offset : Nat) : Nat := portionFrom 0 0 offset document

/-- How many characters beyond its place are read before another flaw is seen. -/
def lookahead : Nat := 3

/-- The flaw for which a document is refused. A character that may not stand in it is seen as soon
as its portion is read, and any other flaw as soon as its place is reached. -/
def flaw? (document : Text) : Option Flaw :=
  match forbiddenFrom? 0 document, flawFrom? {} document with
  | none, none => none
  | some _, none => some .controlCharacter
  | none, some (_, flaw) => some flaw
  | some forbidden, some (place, flaw) =>
    if portionAt document forbidden ≤ portionAt document (place + lookahead) then
      some .controlCharacter
    else some flaw

/-- What lies between two words of a quoted text: blanks, or the ends of one line and `more`. -/
inductive Gap where
  | blanks (n : Nat)
  | lines (more : Nat)
  deriving DecidableEq, Repr

/-- The gap with one more blank. Blanks around the end of a line are dropped. -/
def Gap.addBlank : Gap → Gap
  | .blanks n => .blanks (n + 1)
  | .lines more => .lines more

def Gap.addLine : Gap → Gap
  | .blanks _ => .lines 0
  | .lines more => .lines (more + 1)

/-- What a gap stands for: the end of one line is a blank, and any more are kept. -/
def Gap.text : Gap → Text
  | .blanks n => List.replicate n 32
  | .lines 0 => [32]
  | .lines (more + 1) => List.replicate (more + 1) Text.newline

/-- What a quoted text after a gap stands for. -/
def foldedFrom (gap : Gap) : Text → Text
  | [] => gap.text
  | 0xC2 :: 0x85 :: rest => foldedFrom gap.addLine rest
  | b :: rest =>
    if b = 32 then foldedFrom gap.addBlank rest
    else gap.text ++ b :: foldedFrom (.blanks 0) rest

def folded (s : Text) : Text := foldedFrom (.blanks 0) (Utf8.repaired s)

end ProtoTypings.Yaml

namespace ProtoTypings.Data

def toYaml (value : Data) : Except Yaml.Flaw Data :=
  match Yaml.flaw? value.json with
  | some flaw => .error flaw
  | none => .ok (value.mapTexts Yaml.folded)

end ProtoTypings.Data
