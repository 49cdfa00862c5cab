import ProtoTypings.Text.Basic

set_option autoImplicit false
set_option relaxedAutoImplicit false

/-!
Variable-length integers: seven bits a byte, the lowest first, and the high bit set on every byte
but the last.
-/

namespace ProtoTypings.Wire

/-- The shortest spelling of a number. -/
def writeVarint (n : Nat) : Text :=
  if n < 128 then [n.toUInt8] else (n % 128 + 128).toUInt8 :: writeVarint (n / 128)
termination_by n
decreasing_by omega

/-- Reads a number whose byte at `place` comes next, and gives the rest. At most ten bytes are read
and the tenth may only be 0 or 1, so that the number has at most 64 bits. -/
def readVarintAt : (place : Nat) → Text → Option (Nat × Text)
  | _, [] => none
  | place, b :: rest =>
    if place = 9 then
      if b ≤ 1 then some (b.toNat, rest) else none
    else if b < 128 then some (b.toNat, rest)
    else match readVarintAt (place + 1) rest with
      | some (high, rest) => some (b.toNat - 128 + 128 * high, rest)
      | none => none

def readVarint (s : Text) : Option (Nat × Text) := readVarintAt 0 s

private theorem readVarintAt_length {place n : Nat} {s rest : Text}
    (read : readVarintAt place s = some (n, rest)) : rest.length < s.length := by
  induction s generalizing place n with
  | nil => simp [readVarintAt] at read
  | cons b s ih =>
    unfold readVarintAt at read
    split at read
    · split at read <;> simp_all
    · split at read
      · simp_all
      · split at read
        · next high tail step =>
          obtain ⟨-, rfl⟩ : _ ∧ tail = rest := by simpa using read
          exact Nat.lt_succ_of_lt (ih step)
        · simp at read

theorem readVarint_length {n : Nat} {s rest : Text}
    (read : readVarint s = some (n, rest)) : rest.length < s.length :=
  readVarintAt_length read

def readVarints (s : Text) : Option (List Nat) :=
  if s = [] then some []
  else match _ : readVarint s with
    | some (n, rest) =>
      match readVarints rest with
      | some more => some (n :: more)
      | none => none
    | none => none
termination_by s.length
decreasing_by exact readVarint_length (by assumption)

/-- The low 32 bits of a number, read as a signed word. -/
def signed32 (n : Nat) : Int := Int.bmod n 0x100000000

end ProtoTypings.Wire
