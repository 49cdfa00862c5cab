import ProtoTypings.Text.Basic
import ProtoTypings.Text.Utf8

set_option autoImplicit false
set_option relaxedAutoImplicit false

/-!
Plain structured values, for showing what a program has built, and their JSON on one line and
without blanks.
-/

namespace ProtoTypings

inductive Data where
  | null
  | boolean (b : Bool)
  | integer (n : Int)
  | text (s : Text)
  | list (items : List Data)
  | object (members : List (Text × Data))

namespace Data

mutual

/-- The value with every text in it changed. The names of members stay. -/
def mapTexts (f : Text → Text) : Data → Data
  | .null => .null
  | .boolean b => .boolean b
  | .integer n => .integer n
  | .text s => .text (f s)
  | .list items => .list (mapTextsOfItems f items)
  | .object members => .object (mapTextsOfMembers f members)

def mapTextsOfItems (f : Text → Text) : List Data → List Data
  | [] => []
  | item :: rest => mapTexts f item :: mapTextsOfItems f rest

def mapTextsOfMembers (f : Text → Text) : List (Text × Data) → List (Text × Data)
  | [] => []
  | (name, value) :: rest => (name, mapTexts f value) :: mapTextsOfMembers f rest

end

end Data

namespace Json

/-- A piece of a quoted text. Escaped are quotes, backslashes, the lower control characters, the
signs that mean something in HTML, and the line and paragraph separators. A stray byte is written as
the replacement character's escape. -/
def quotedPiece : Utf8.Piece → Text
  | .stray _ => "\\ufffd"
  | .character code bytes =>
    if code = 34 || code = 92 then 92 :: bytes
    else if code = 8 then "\\b"
    else if code = 9 then "\\t"
    else if code = 10 then "\\n"
    else if code = 12 then "\\f"
    else if code = 13 then "\\r"
    else if code < 32 || code = 38 || code = 60 || code = 62 || code = 0x2028 || code = 0x2029 then
      "\\u" ++ Text.hexPadded 4 code
    else bytes

def quoted (s : Text) : Text := 34 :: ((Utf8.pieces s).flatMap quotedPiece ++ [34])

end Json

namespace Data

mutual

/-- A value in JSON before a text. -/
def jsonBefore : Data → (rest : Text) → Text
  | .null, rest => "null" ++ rest
  | .boolean b, rest => Text.ofBool b ++ rest
  | .integer n, rest => Text.ofInt n ++ rest
  | .text s, rest => Json.quoted s ++ rest
  | .list items, rest => 91 :: itemsBefore items (93 :: rest)
  | .object members, rest => 123 :: membersBefore members (125 :: rest)

def itemsBefore : List Data → (rest : Text) → Text
  | [], rest => rest
  | [item], rest => jsonBefore item rest
  | item :: more, rest => jsonBefore item (44 :: itemsBefore more rest)

def membersBefore : List (Text × Data) → (rest : Text) → Text
  | [], rest => rest
  | [(name, value)], rest => Json.quoted name ++ 58 :: jsonBefore value rest
  | (name, value) :: more, rest =>
    Json.quoted name ++ 58 :: jsonBefore value (44 :: membersBefore more rest)

end

def json (value : Data) : Text := value.jsonBefore []

end Data

end ProtoTypings
