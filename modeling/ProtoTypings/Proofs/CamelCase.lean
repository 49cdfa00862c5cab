import Mathlib.Data.List.Infix
import ProtoTypings.Identifier

set_option autoImplicit false
set_option relaxedAutoImplicit false

/-!
Camel case takes underscores away and changes the case of letters, and does nothing else. In a name
without two underscores in a row it takes all of them but one at the end, so a second time it has
nothing to do.
-/

namespace ProtoTypings

namespace Ascii

private theorem isLower_iff {b : UInt8} : isLower b = true ↔ 97 ≤ b.toNat ∧ b.toNat ≤ 122 := by
  simp [isLower, UInt8.le_iff_toNat_le]

private theorem isUpper_iff {b : UInt8} : isUpper b = true ↔ 65 ≤ b.toNat ∧ b.toNat ≤ 90 := by
  simp [isUpper, UInt8.le_iff_toNat_le]

private theorem toUpper_of_not_isLower {b : UInt8} (other : isLower b = false) : toUpper b = b := by
  simp [toUpper, other]

private theorem toNat_toUpper {b : UInt8} (lower : isLower b = true) :
    (toUpper b).toNat = b.toNat - 32 := by
  have range := isLower_iff.mp lower
  have enough : (32 : UInt8) ≤ b := UInt8.le_iff_toNat_le.mpr (by simp; omega)
  rw [toUpper, if_pos lower, UInt8.toNat_sub_of_le _ _ enough]
  rfl

private theorem toLower_toUpper (b : UInt8) : toLower (toUpper b) = toLower b := by
  cases lower : isLower b with
  | false => rw [toUpper_of_not_isLower lower]
  | true =>
    have range := isLower_iff.mp lower
    have upper : isUpper (toUpper b) = true := by
      rw [isUpper_iff, toNat_toUpper lower]
      omega
    have notUpper : ¬isUpper b = true := by
      rw [isUpper_iff]
      omega
    rw [toLower, if_pos upper, toLower, if_neg notUpper, toUpper, if_pos lower,
      UInt8.sub_add_cancel]

private theorem toUpper_eq_underscore_iff {b : UInt8} :
    toUpper b = Text.underscore ↔ b = Text.underscore := by
  cases lower : isLower b with
  | false => rw [toUpper_of_not_isLower lower]
  | true =>
    have range := isLower_iff.mp lower
    rw [← UInt8.toNat_inj, ← UInt8.toNat_inj, toNat_toUpper lower]
    change b.toNat - 32 = 95 ↔ b.toNat = 95
    omega

end Ascii

namespace Identifier

open Text (underscore)

/-- A name without its underscores, in lower case. -/
def caseless (name : Text) : Text := (name.filter (· ≠ underscore)).map Ascii.toLower

private theorem caseless_underscore_cons (name : Text) :
    caseless (underscore :: name) = caseless name := rfl

private theorem caseless_cons_of_ne {b : UInt8} (other : b ≠ underscore) (name : Text) :
    caseless (b :: name) = Ascii.toLower b :: caseless name := by
  simp [caseless, other]

private theorem caseless_cons_congr (b : UInt8) {name other : Text}
    (same : caseless name = caseless other) :
    caseless (b :: name) = caseless (b :: other) := by
  by_cases separator : b = underscore
  · rw [separator, caseless_underscore_cons, caseless_underscore_cons, same]
  · rw [caseless_cons_of_ne separator, caseless_cons_of_ne separator, same]

private theorem caseless_toUpper_cons (b : UInt8) (name : Text) :
    caseless (Ascii.toUpper b :: name) = caseless (b :: name) := by
  by_cases separator : b = underscore
  · rw [Ascii.toUpper_eq_underscore_iff.mpr separator, separator]
  · have other : Ascii.toUpper b ≠ underscore := fun same =>
      separator (Ascii.toUpper_eq_underscore_iff.mp same)
    rw [caseless_cons_of_ne other, caseless_cons_of_ne separator, Ascii.toLower_toUpper]

private theorem caseless_camelCase (name : Text) : caseless (camelCase name) = caseless name := by
  fun_induction camelCase name with
  | case1 => rfl
  | case2 => rfl
  | case3 b c rest segment ih =>
    obtain ⟨rfl, -⟩ : b = underscore ∧ Ascii.isWord c = true := by simpa using segment
    rw [caseless_toUpper_cons, caseless_underscore_cons]
    exact caseless_cons_congr c ih
  | case4 b c rest _ ih => exact caseless_cons_congr b ih

private theorem length_camelCase_le (name : Text) : (camelCase name).length ≤ name.length := by
  fun_induction camelCase name with
  | case1 => exact Nat.le_refl _
  | case2 => exact Nat.le_refl _
  | case3 b c rest _ ih =>
    simp only [List.length_cons]
    omega
  | case4 b c rest _ ih =>
    simp only [List.length_cons] at ih ⊢
    omega

private theorem camelCase_cons_of_ne {b : UInt8} (other : b ≠ underscore) (name : Text) :
    camelCase (b :: name) = b :: camelCase name := by
  cases name with
  | nil => rfl
  | cons c rest => simp [camelCase, other]

private theorem camelCase_append {front : Text} (free : underscore ∉ front) (name : Text) :
    camelCase (front ++ name) = front ++ camelCase name := by
  induction front with
  | nil => rfl
  | cons b front ih =>
    obtain ⟨other, rest⟩ := not_or.mp (mt List.mem_cons.mpr free)
    rw [List.cons_append, camelCase_cons_of_ne (Ne.symm other), ih rest, List.cons_append]

def Spaced (name : Text) : Prop := ¬[underscore, underscore] <:+: name

instance (name : Text) : Decidable (Spaced name) :=
  inferInstanceAs (Decidable ¬[underscore, underscore] <:+: name)

private theorem Spaced.tail {b : UInt8} {name : Text} (spaced : Spaced (b :: name)) : Spaced name :=
  fun inside => spaced (List.infix_cons inside)

private theorem Spaced.ne_underscore {b : UInt8} {name : Text}
    (spaced : Spaced (underscore :: b :: name)) : b ≠ underscore := by
  rintro rfl
  exact spaced (List.prefix_append [underscore, underscore] name).isInfix

/-- The underscore that a name ends in, or nothing. -/
def ending (name : Text) : Text := if name.getLast? = some underscore then [underscore] else []

private theorem ending_cons_cons (b c : UInt8) (name : Text) :
    ending (b :: c :: name) = ending (c :: name) := by
  rw [ending, ending, List.getLast?_cons_cons]

private theorem ending_cons_of_ne {b : UInt8} (other : b ≠ underscore) (name : Text) :
    ending (b :: name) = ending name := by
  cases name with
  | nil => simp [ending, other]
  | cons c rest => exact ending_cons_cons b c rest

private theorem camelCase_eq_append_ending {name : Text} (word : ∀ b ∈ name, Ascii.isWord b = true)
    (spaced : Spaced name) :
    ∃ front, underscore ∉ front ∧ camelCase name = front ++ ending name := by
  fun_induction camelCase name with
  | case1 => exact ⟨[], List.not_mem_nil, rfl⟩
  | case2 b =>
    by_cases separator : b = underscore
    · exact ⟨[], List.not_mem_nil, by simp [ending, separator]⟩
    · exact ⟨[b], by simpa using Ne.symm separator, by simp [ending, separator]⟩
  | case3 b c rest segment ih =>
    obtain ⟨rfl, -⟩ : b = underscore ∧ Ascii.isWord c = true := by simpa using segment
    have letter := spaced.ne_underscore
    have upper : underscore ≠ Ascii.toUpper c := fun same =>
      letter (Ascii.toUpper_eq_underscore_iff.mp same.symm)
    obtain ⟨front, free, made⟩ := ih (fun b member => word b (by simp [member])) spaced.tail.tail
    refine ⟨Ascii.toUpper c :: front, List.not_mem_cons_of_ne_of_not_mem upper free, ?_⟩
    rw [ending_cons_cons, ending_cons_of_ne letter, made, List.cons_append]
  | case4 b c rest single ih =>
    -- Every byte is of a word, so only an underscore that is the last byte could stay in its place.
    have letter : b ≠ underscore := fun same => single (by simp [same, word c (by simp)])
    obtain ⟨front, free, made⟩ := ih (fun b member => word b (List.mem_cons_of_mem _ member))
      spaced.tail
    refine ⟨b :: front, List.not_mem_cons_of_ne_of_not_mem (Ne.symm letter) free, ?_⟩
    rw [ending_cons_cons, made, List.cons_append]

private theorem camelCase_ending (name : Text) : camelCase (ending name) = ending name := by
  rw [ending]
  split <;> rfl

private theorem mem_ending_iff {name : Text} :
    underscore ∈ ending name ↔ name.getLast? = some underscore := by
  by_cases ends : name.getLast? = some underscore
  · simp [ending, ends]
  · simp [ending, ends]

private theorem index_of_append_ending {front name : Text} (free : underscore ∉ front) {i : Nat}
    (found : (front ++ ending name)[i]? = some underscore) :
    i + 1 = (front ++ ending name).length := by
  have after : front.length ≤ i := by
    by_contra before
    rw [List.getElem?_append_left (by omega)] at found
    exact free (List.mem_of_getElem? found)
  have bound := (List.getElem?_eq_some_iff.mp found).1
  have short : (ending name).length ≤ 1 := by
    rw [ending]
    split <;> simp
  rw [List.length_append] at bound ⊢
  omega

/-- Camel case keeps every byte of a name but underscores, up to the case of letters, and makes no
name longer. In a name of letters, digits and single underscores no underscore stays but one at the
end, and the result is in camel case already. -/
theorem camelCase_removes_underscores (name : Text) :
    caseless (camelCase name) = caseless name ∧ (camelCase name).length ≤ name.length ∧
      ((∀ b ∈ name, Ascii.isWord b = true) → Spaced name →
        (∀ i : Nat, (camelCase name)[i]? = some underscore → i + 1 = (camelCase name).length) ∧
        (underscore ∈ camelCase name ↔ name.getLast? = some underscore) ∧
        camelCase (camelCase name) = camelCase name) := by
  refine ⟨caseless_camelCase name, length_camelCase_le name, fun word spaced => ?_⟩
  obtain ⟨front, free, made⟩ := camelCase_eq_append_ending word spaced
  rw [made]
  refine ⟨fun i => index_of_append_ending free, ?_, ?_⟩
  · rw [List.mem_append, mem_ending_iff, or_iff_right free]
  · rw [camelCase_append free, camelCase_ending]

/-- Underscores at both ends, before a letter of either case and before a digit. -/
theorem camelCase_removes_underscores_both_ends :
    let name : Text := Text.ofString "_foo_Bar_1_x_"
    (∀ b ∈ name, Ascii.isWord b = true) ∧ Spaced name ∧
      camelCase name = Text.ofString "FooBar1X_" ∧ caseless name = Text.ofString "foobar1x" ∧
      caseless (camelCase name) = Text.ofString "foobar1x" ∧
      camelCase (camelCase name) = camelCase name := by
  intro name
  have word : ∀ b ∈ name, Ascii.isWord b = true := by decide +kernel
  have spaced : Spaced name := by decide +kernel
  have folded : caseless name = Text.ofString "foobar1x" := by decide +kernel
  obtain ⟨kept, -, settled⟩ := camelCase_removes_underscores name
  exact ⟨word, spaced, by decide +kernel, folded, kept.trans folded, (settled word spaced).2.2⟩

/-- Of two underscores in a row one stays, and a second time it goes as well. -/
example : camelCase (Text.ofString "a__b") = Text.ofString "a_b" ∧
    camelCase (Text.ofString "a_b") = Text.ofString "aB" := by decide

end Identifier

end ProtoTypings
