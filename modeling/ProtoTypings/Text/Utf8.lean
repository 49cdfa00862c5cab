import ProtoTypings.Text.Basic

set_option autoImplicit false
set_option relaxedAutoImplicit false

/-!
The characters that a text spells in UTF-8. A byte that belongs to no character stands for itself.
-/

namespace ProtoTypings.Utf8

/-- A character with its code point and its bytes, or a byte outside any character. -/
inductive Piece where
  | character (code : Nat) (bytes : Text)
  | stray (byte : UInt8)
  deriving DecidableEq, Repr

/-- Whether a byte continues a character: 80 to BF. -/
def isTail (b : UInt8) : Bool := 0x80 ≤ b && b ≤ 0xBF

/-- The second byte that a first byte of three or four allows. Shorter spellings, surrogates and
code points above 10FFFF are excluded here. -/
def isSecond (first second : UInt8) : Bool :=
  if first = 0xE0 then 0xA0 ≤ second && second ≤ 0xBF
  else if first = 0xED then 0x80 ≤ second && second ≤ 0x9F
  else if first = 0xF0 then 0x90 ≤ second && second ≤ 0xBF
  else if first = 0xF4 then 0x80 ≤ second && second ≤ 0x8F
  else isTail second

/-- The six bits that a tail byte adds to a code point. -/
def tailBits (b : UInt8) : Nat := b.toNat % 64

/-- The code point and the number of bytes of the character that a text starts with. -/
def leading? : Text → Option (Nat × Nat)
  | [] => none
  | a :: rest =>
    if a < 0x80 then some (a.toNat, 1)
    else match rest with
      | b :: rest =>
        if 0xC2 ≤ a && a ≤ 0xDF && isTail b then
          some (a.toNat % 32 * 64 + tailBits b, 2)
        else match rest with
          | c :: rest =>
            if 0xE0 ≤ a && a ≤ 0xEF && isSecond a b && isTail c then
              some ((a.toNat % 16 * 64 + tailBits b) * 64 + tailBits c, 3)
            else match rest with
              | d :: _ =>
                if 0xF0 ≤ a && a ≤ 0xF4 && isSecond a b && isTail c && isTail d then
                  some (((a.toNat % 8 * 64 + tailBits b) * 64 + tailBits c) * 64 + tailBits d, 4)
                else none
              | [] => none
          | [] => none
      | [] => none

/-- The pieces of a text after `skip` bytes that an earlier character has used. -/
def piecesAfter : (skip : Nat) → Text → List Piece
  | _, [] => []
  | skip + 1, _ :: rest => piecesAfter skip rest
  | 0, b :: rest =>
    match leading? (b :: rest) with
    | some (code, width) => .character code ((b :: rest).take width) :: piecesAfter (width - 1) rest
    | none => .stray b :: piecesAfter 0 rest

def pieces (s : Text) : List Piece := piecesAfter 0 s

def replacement : Text := [0xEF, 0xBF, 0xBD]

/-- The text with every stray byte replaced by U+FFFD, so that it is made of characters only. -/
def repaired (s : Text) : Text :=
  (pieces s).flatMap fun
    | .character _ bytes => bytes
    | .stray _ => replacement

end ProtoTypings.Utf8
