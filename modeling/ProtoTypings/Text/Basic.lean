set_option autoImplicit false
set_option relaxedAutoImplicit false

/-!
Text as the bytes it is made of. Schema files, comments and command line arguments may hold any
bytes at all, so every operation here works on bytes and leaves the ones it does not name alone.
Letters and digits are those of ASCII, blanks are the characters with the Unicode property
White_Space.
-/

namespace ProtoTypings

/-- A text is its sequence of bytes, whether or not they spell characters. -/
abbrev Text := List UInt8

namespace Text

def ofString (s : String) : Text :=
  s.toList.flatMap String.utf8EncodeChar

instance : Coe String Text := ⟨ofString⟩

def newline : UInt8 := 10

def slash : UInt8 := 47

def dot : UInt8 := 46

def hyphen : UInt8 := 45

def underscore : UInt8 := 95

def equals : UInt8 := 61

/-- Decimal digits of a natural number, without leading zeros. -/
def ofNat (n : Nat) : Text :=
  (Nat.toDigits 10 n).map Char.toUInt8

/-- Decimal digits of an integer, after a hyphen if it is negative. -/
def ofInt : Int → Text
  | .ofNat n => ofNat n
  | .negSucc n => hyphen :: ofNat (n + 1)

def ofBool (b : Bool) : Text :=
  if b then "true" else "false"

/-- Lower case hexadecimal digits, padded with zeros on the left to at least `width` digits. -/
def hexPadded (width n : Nat) : Text :=
  let digits := (Nat.toDigits 16 n).map Char.toUInt8
  List.replicate (width - digits.length) 48 ++ digits

/-- The parts between the occurrences of a byte; there is always at least one part. -/
def split (separator : UInt8) (s : Text) : List Text :=
  List.splitOn separator s

/-- The parts with a separator between every two of them. -/
def join (separator : Text) (parts : List Text) : Text :=
  separator.intercalate parts

def startsWith (start s : Text) : Bool :=
  start.isPrefixOf s

/-- Removes one occurrence of `start` from the front, if it is there. -/
def trimStart (start s : Text) : Text :=
  (start.isPrefixOf? s).getD s

/-- Removes one occurrence of `ending` from the end, if it is there. -/
def trimEnd (ending s : Text) : Text :=
  (ending.isSuffixOf? s).getD s

def replace (old new : UInt8) (s : Text) : Text :=
  s.map fun b => if b = old then new else b

/-- Cuts at the first occurrence of a byte, which belongs to neither part. Without an occurrence
there is no second part. -/
def cutAt (separator : UInt8) (s : Text) : Text × Option Text :=
  match s.dropWhile (· ≠ separator) with
  | [] => (s, none)
  | _ :: rest => (s.takeWhile (· ≠ separator), some rest)

end Text

namespace Ascii

def isDigit (b : UInt8) : Bool := 48 ≤ b && b ≤ 57

def isUpper (b : UInt8) : Bool := 65 ≤ b && b ≤ 90

def isLower (b : UInt8) : Bool := 97 ≤ b && b ≤ 122

/-- A letter, a digit or an underscore. -/
def isWord (b : UInt8) : Bool :=
  isDigit b || isUpper b || isLower b || b = Text.underscore

/-- Upper case of a letter; any other byte stays. -/
def toUpper (b : UInt8) : UInt8 := if isLower b then b - 32 else b

def toLower (b : UInt8) : UInt8 := if isUpper b then b + 32 else b

end Ascii

namespace Blank

/-- The spellings of the blank characters: U+0009 to U+000D, U+0020, U+0085, U+00A0, U+1680,
U+2000 to U+200A, U+2028, U+2029, U+202F, U+205F and U+3000. -/
def spellings : List Text :=
  [[0x09], [0x0A], [0x0B], [0x0C], [0x0D], [0x20], [0xC2, 0x85], [0xC2, 0xA0], [0xE1, 0x9A, 0x80],
    [0xE2, 0x80, 0x80], [0xE2, 0x80, 0x81], [0xE2, 0x80, 0x82], [0xE2, 0x80, 0x83],
    [0xE2, 0x80, 0x84], [0xE2, 0x80, 0x85], [0xE2, 0x80, 0x86], [0xE2, 0x80, 0x87],
    [0xE2, 0x80, 0x88], [0xE2, 0x80, 0x89], [0xE2, 0x80, 0x8A], [0xE2, 0x80, 0xA8],
    [0xE2, 0x80, 0xA9], [0xE2, 0x80, 0xAF], [0xE2, 0x81, 0x9F], [0xE3, 0x80, 0x80]]

/-- How many bytes the first of the given spellings takes at the front of a text; 0 if none does. -/
def width (among : List Text) (s : Text) : Nat :=
  ((among.find? (·.isPrefixOf s)).map List.length).getD 0

/-- Removes the given spellings from the front, as long as one is there; `skip` bytes belong to a
spelling that has been found. -/
def dropAfter (among : List Text) : (skip : Nat) → Text → Text
  | _, [] => []
  | skip + 1, _ :: rest => dropAfter among skip rest
  | 0, b :: rest =>
    match width among (b :: rest) with
    | 0 => b :: rest
    | n + 1 => dropAfter among n rest

def trimLeft (s : Text) : Text := dropAfter spellings 0 s

def trimRight (s : Text) : Text :=
  (dropAfter (spellings.map List.reverse) 0 s.reverse).reverse

def trim (s : Text) : Text := trimRight (trimLeft s)

end Blank

/-- The title of a type and the names of its values, in order of their numbers. -/
structure Enumeration where
  title : String
  names : List String

/-- The name of a numbered value. A number without a value is shown with the title. -/
def Enumeration.nameOf (e : Enumeration) (code : Int) : Text :=
  let unnamed : Text := e.title ++ "(" ++ Text.ofInt code ++ ")"
  match code with
  | .ofNat n => (e.names[n]?.map Text.ofString).getD unnamed
  | .negSucc _ => unnamed

end ProtoTypings
