import Mathlib.Data.List.Basic
import ProtoTypings.Layout.Message
import ProtoTypings.Proofs.Wording

set_option autoImplicit false
set_option relaxedAutoImplicit false

/-!
Texts cut into parts and put together of lines. Blocks are written line by line, and splitting reads
their lines back, so that to indent a block is to move its lines.
-/

namespace ProtoTypings

namespace Text

theorem of_mem_split {separator : UInt8} {s part : Text} (member : part ∈ split separator s) :
    part ⊆ s ∧ separator ∉ part := by
  induction s generalizing part with
  | nil =>
    obtain rfl : part = [] := by simpa [split] using member
    exact ⟨List.nil_subset _, List.not_mem_nil⟩
  | cons byte rest ih =>
    obtain ⟨first, others, parts⟩ := List.exists_cons_of_ne_nil (List.splitOn_ne_nil separator rest)
    have among (later : Text) (listed : later ∈ first :: others) : later ∈ split separator rest := by
      rw [split, parts]
      exact listed
    rw [split, List.splitOn_cons_eq_if_modifyHead, parts] at member
    split at member
    · rcases List.mem_cons.mp member with rfl | later
      · exact ⟨List.nil_subset _, List.not_mem_nil⟩
      · obtain ⟨inside, whole⟩ := ih (among part later)
        exact ⟨List.subset_cons_of_subset byte inside, whole⟩
    · rename_i differs
      rw [List.modifyHead_cons] at member
      rcases List.mem_cons.mp member with rfl | later
      · obtain ⟨inside, whole⟩ := ih (among first List.mem_cons_self)
        have apart : separator ≠ byte := fun same => differs (by simp [same])
        exact ⟨List.cons_subset_cons byte inside,
          List.not_mem_cons_of_ne_of_not_mem apart whole⟩
      · obtain ⟨inside, whole⟩ := ih (among part (List.mem_cons_of_mem first later))
        exact ⟨List.subset_cons_of_subset byte inside, whole⟩

theorem getLast?_append_of_some {front back : Text} {byte : UInt8} (ends : back.getLast? = some byte) :
    (front ++ back).getLast? = some byte := by
  rw [List.getLast?_append, ends]
  rfl

theorem oneLine_of_mem_split {s line : Text} (member : line ∈ split newline s) : line.OneLine :=
  (of_mem_split member).2

theorem trimStart_subset (start s : Text) : trimStart start s ⊆ s := by
  rw [trimStart]
  cases trimmed : start.isPrefixOf? s with
  | none => exact List.Subset.refl s
  | some rest =>
    rw [← List.isPrefixOf?_eq_some_iff_append_eq.mp trimmed]
    exact List.subset_append_right start rest

theorem trimEnd_subset (ending s : Text) : trimEnd ending s ⊆ s := by
  rw [trimEnd]
  cases trimmed : ending.isSuffixOf? s with
  | none => exact List.Subset.refl s
  | some rest =>
    rw [← List.isSuffixOf?_eq_some_iff_append_eq.mp trimmed]
    exact List.subset_append_left rest ending

end Text

namespace Layout

@[simp] theorem block_nil : block [] = [] := rfl

@[simp] theorem block_cons (line : Text) (lines : List Text) :
    block (line :: lines) = Text.newline :: line ++ block lines := rfl

@[simp] theorem block_append (lines more : List Text) :
    block (lines ++ more) = block lines ++ block more := List.flatMap_append

theorem block_map {α : Type} (f : α → Text) (xs : List α) :
    block (xs.map f) = xs.flatMap fun x => block [f x] := by
  simp [block, List.flatMap_map]

theorem append_block_eq_join (first : Text) (lines : List Text) :
    first ++ block lines = Text.join [Text.newline] (first :: lines) := by
  induction lines generalizing first with
  | nil => simp [Text.join]
  | cons line lines ih =>
    have rest := ih line
    rw [Text.join] at rest ⊢
    rw [List.intercalate_cons_cons, ← rest]
    simp

theorem split_append_block {first : Text} {lines : List Text} (before : first.OneLine)
    (oneLine : ∀ line ∈ lines, line.OneLine) :
    Text.split Text.newline (first ++ block lines) = first :: lines := by
  rw [append_block_eq_join]
  refine List.splitOn_intercalate Text.newline (fun line member => ?_) (List.cons_ne_nil _ _)
  rcases List.mem_cons.mp member with rfl | later
  · exact before
  · exact oneLine line later

theorem split_block {lines : List Text} (oneLine : ∀ line ∈ lines, line.OneLine) :
    Text.split Text.newline (block lines) = [] :: lines :=
  split_append_block Text.oneLine_nil oneLine

@[simp] theorem shift_nil (columns : Nat) : shift columns [] = [] := rfl

theorem shift_of_ne_nil {line : Text} (nonempty : line ≠ []) (columns : Nat) :
    shift columns line = List.replicate columns 32 ++ line := if_neg nonempty

theorem oneLine_shift {line : Text} (oneLine : line.OneLine) (columns : Nat) :
    (shift columns line).OneLine := by
  by_cases empty : line = []
  · rw [empty]
    exact Text.oneLine_nil
  · rw [shift_of_ne_nil empty]
    refine Text.oneLine_append.mpr ⟨fun inside => ?_, oneLine⟩
    exact absurd (List.eq_of_mem_replicate inside) (by decide)

theorem indent_block {lines : List Text} (oneLine : ∀ line ∈ lines, line.OneLine) (columns : Nat) :
    indent columns (block lines) = block (lines.map (shift columns)) := by
  rw [indent, split_block oneLine, List.map_cons, shift_nil, ← append_block_eq_join, List.nil_append]

end Layout

end ProtoTypings
