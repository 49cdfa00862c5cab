import ProtoTypings.Text.Utf8

set_option autoImplicit false
set_option relaxedAutoImplicit false

/-!
Log lines: a level, the program's name, a message and named values.
-/

namespace ProtoTypings.Log

inductive Value where
  | text (s : Text)
  | integer (n : Int)
  | boolean (b : Bool)
  | null
  deriving DecidableEq, Repr

abbrev Pair := Text × Value

/-- How important a line is: information of some detail, or an error. -/
inductive Severity where
  | info (detail : Int)
  | error
  deriving DecidableEq, Repr

/-- The detail of information lies between 0 and 127. -/
def clampedDetail (detail : Int) : Int := max 0 (min detail 127)

/-- The rank of a severity; more detail ranks lower. -/
def Severity.rank : Severity → Int
  | .info detail => -clampedDetail detail
  | .error => 2

/-- The least rank that is written at a verbosity: errors only up to 0, else its negation as a
signed byte. -/
def threshold (verbosity : Int) : Int :=
  if verbosity ≤ 0 then 2 else Int.bmod (-verbosity) 256

def Severity.name : Severity → Text
  | .error => "ERROR"
  | .info detail =>
    if clampedDetail detail = 0 then "INFO"
    else if clampedDetail detail = 1 then "DEBUG"
    else "LEVEL(" ++ Text.ofInt (-clampedDetail detail) ++ ")"

/-- A piece of a quoted text: quotes, backslashes and control characters are escaped, and a stray
byte is written as the replacement character's escape. -/
def quotedPiece : Utf8.Piece → Text
  | .stray _ => "\\ufffd"
  | .character code bytes =>
    if code = 34 || code = 92 then 92 :: bytes
    else if code = 10 then "\\n"
    else if code = 13 then "\\r"
    else if code = 9 then "\\t"
    else if code < 32 then "\\u" ++ Text.hexPadded 4 code
    else bytes

def quoted (s : Text) : Text := 34 :: ((Utf8.pieces s).flatMap quotedPiece ++ [34])

def Value.render : Value → Text
  | .text s => quoted s
  | .integer n => Text.ofInt n
  | .boolean b => Text.ofBool b
  | .null => "null"

def renderPair (pair : Pair) : Text := quoted pair.1 ++ ": " ++ pair.2.render

def renderPairs (pairs : List Pair) : Text :=
  if pairs = [] then [] else "\t\x7b" ++ Text.join ", " (pairs.map renderPair) ++ "\x7d"

structure Entry where
  severity : Severity
  message : Text
  pairs : List Pair := []
  deriving DecidableEq, Repr

def Entry.line (entry : Entry) : Text :=
  entry.severity.name ++ "\tprotoc-gen-tsd\t" ++ entry.message ++ renderPairs entry.pairs

def Entry.failure (error message : Text) (pairs : List Pair) : Entry :=
  ⟨.error, message, pairs ++ [(Text.ofString "error", .text error)]⟩

def Entry.isWritten (verbosity : Int) (entry : Entry) : Bool :=
  threshold verbosity ≤ entry.severity.rank

def written (verbosity : Int) (entries : List Entry) : List Text :=
  (entries.filter (·.isWritten verbosity)).map Entry.line

def writtenText (verbosity : Int) (entries : List Entry) : Text :=
  (written verbosity entries).flatMap fun line => line ++ [Text.newline]

end ProtoTypings.Log
