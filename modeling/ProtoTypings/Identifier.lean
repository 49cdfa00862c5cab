import ProtoTypings.Text.Basic
import ProtoTypings.Text.Utf8

set_option autoImplicit false
set_option relaxedAutoImplicit false

/-!
Identifiers in the generated declarations: scoped names, camel case, and reserved words.
-/

namespace ProtoTypings

namespace Identifier

/-- The name of a declaration inside the one with name `parent`; the empty name is the top level. -/
def qualified (parent child : Text) : Text :=
  if parent = [] then child else parent ++ Text.dot :: child

/-- An underscore and the letter, digit or underscore after it become that character in upper case,
from left to right. Any other underscore stays. -/
def camelCase : Text → Text
  | [] => []
  | [b] => [b]
  | b :: c :: rest =>
    if b = Text.underscore && Ascii.isWord c then Ascii.toUpper c :: camelCase rest
    else b :: camelCase (c :: rest)

/-- Changes the case of the first byte. A byte outside ASCII is no character of its own and turns
into the replacement character. -/
def mapFirst (change : UInt8 → UInt8) : Text → Text
  | [] => []
  | b :: rest => if b < 0x80 then change b :: rest else Utf8.replacement ++ rest

def upperFirst (name : Text) : Text := mapFirst Ascii.toUpper name

def lowerFirst (name : Text) : Text := mapFirst Ascii.toLower name

/-- The words that the target language reserves. -/
def reservedWords : List Text :=
  ["abstract", "boolean", "break", "byte", "case", "catch", "char", "class", "const", "continue",
    "debugger", "default", "delete", "do", "double", "else", "enum", "export", "extends", "false",
    "final", "finally", "float", "for", "function", "goto", "if", "implements", "import", "in",
    "instanceof", "int", "interface", "long", "native", "new", "null", "package", "private",
    "protected", "public", "return", "short", "static", "super", "switch", "synchronized", "this",
    "throw", "throws", "transient", "try", "typeof", "var", "void", "volatile", "while", "with"].map
    Text.ofString

def isReserved (name : Text) : Bool := reservedWords.contains name

end Identifier

/-- How a reserved word is spelled as an object key: with `pb_` in front, or with an underscore
after it. -/
inductive ReservedPolicy where
  | leading
  | trailing
  deriving DecidableEq, Repr, Inhabited

namespace ReservedPolicy

def enumeration : Enumeration := ⟨"ReservedPolicy", ["prefix", "suffix"]⟩

def code : ReservedPolicy → Int
  | .leading => 0
  | .trailing => 1

def ofCode (code : Int) : ReservedPolicy := if code = 1 then .trailing else .leading

def ofText? (s : Text) : Option ReservedPolicy :=
  if s = [] || s = Text.ofString "prefix" then some .leading
  else if s = Text.ofString "suffix" then some .trailing
  else none

/-- The spelling of a name as an object key. Only reserved words change. -/
def escape (policy : ReservedPolicy) (name : Text) : Text :=
  if Identifier.isReserved name then
    match policy with
    | .leading => "pb_" ++ name
    | .trailing => name ++ [Text.underscore]
  else name

end ReservedPolicy

end ProtoTypings
