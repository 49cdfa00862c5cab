import Mathlib.Data.List.Chain
import Mathlib.Data.List.DropRight
import ProtoTypings.Declaration.Basic
import ProtoTypings.Proofs.Lines

set_option autoImplicit false
set_option relaxedAutoImplicit false

/-!
Doc comments and the text in them. No text can end the comment it stands in: a slash comes directly
after a star at the very end and nowhere else, neither inside a line nor where lines, stars and
indentation meet.
-/

namespace ProtoTypings

/-- Neighbours that do not end a comment. -/
def Apart (a b : UInt8) : Prop := ¬(a = 42 ∧ b = Text.slash)

instance (a b : UInt8) : Decidable (Apart a b) :=
  inferInstanceAs (Decidable ¬(a = 42 ∧ b = Text.slash))

private theorem apart_of_left {a : UInt8} (other : a ≠ 42) (b : UInt8) :
    Apart a b := fun both => other both.1

private theorem apart_of_right (a : UInt8) {b : UInt8} (other : b ≠ Text.slash) : Apart a b :=
  fun both => other both.2

private theorem terminator_once {opened : Text} (apart : opened.IsChain Apart)
    (starred : opened.getLast? = some 42) :
    (∃! i, Text.ofString "*/" <+: (opened ++ [Text.slash]).drop i) ∧
      Text.ofString "*/" <:+ opened ++ [Text.slash] := by
  obtain ⟨front, rfl⟩ := List.getLast?_eq_some_iff.mp starred
  have whole : front ++ [42] ++ [Text.slash] = front ++ Text.ofString "*/" := List.append_assoc _ _ _
  refine ⟨⟨front.length, ?_, ?_⟩, ⟨front, whole.symm⟩⟩
  · have last : (front ++ [42] ++ [Text.slash]).drop front.length = Text.ofString "*/" := by
      rw [whole, List.drop_left]
    exact ⟨[], by rw [last, List.append_nil]⟩
  · rintro i ⟨rest, here⟩
    have star : (front ++ [42] ++ [Text.slash])[i]? = some 42 := by
      rw [← List.head?_drop, ← here]
      rfl
    have slash : (front ++ [42] ++ [Text.slash])[i + 1]? = some Text.slash := by
      rw [← List.head?_drop, ← List.tail_drop, ← here]
      rfl
    have bound := (List.getElem?_eq_some_iff.mp slash).1
    rw [List.length_append, List.length_append, List.length_singleton, List.length_singleton] at bound
    by_contra elsewhere
    have inside : i + 1 < (front ++ [42]).length := by
      rw [List.length_append, List.length_singleton]
      omega
    rw [List.getElem?_append_left (by omega)] at star slash
    refine List.isChain_iff_getElem.mp apart i inside ⟨?_, ?_⟩
    · exact (List.getElem?_eq_some_iff.mp star).2
    · exact (List.getElem?_eq_some_iff.mp slash).2

namespace Declaration

private theorem head?_escapeTerminator (s : Text) : (escapeTerminator s).head? = s.head? := by
  fun_cases escapeTerminator s with
  | case1 => rfl
  | case2 => rfl
  | case3 b c rest terminator =>
    obtain ⟨rfl, -⟩ : b = 42 ∧ c = Text.slash := by simpa using terminator
    rfl
  | case4 => rfl

private theorem getLast?_escapeTerminator (s : Text) :
    (escapeTerminator s).getLast? = s.getLast? := by
  fun_induction escapeTerminator s with
  | case1 => rfl
  | case2 => rfl
  | case3 b c rest terminator ih =>
    obtain ⟨rfl, rfl⟩ : b = 42 ∧ c = Text.slash := by simpa using terminator
    simp only [List.getLast?_cons, ih, Option.getD_some]
  | case4 b c rest _ ih =>
    rw [List.getLast?_cons, ih, List.getLast?_cons_cons, List.getLast?_cons]
    rfl

private theorem oneLine_escapeTerminator {s : Text} (oneLine : s.OneLine) :
    (escapeTerminator s).OneLine := by
  fun_induction escapeTerminator s with
  | case1 => exact oneLine
  | case2 => exact oneLine
  | case3 b c rest _ ih =>
    obtain ⟨-, last⟩ := Text.oneLine_cons.mp (Text.oneLine_cons.mp oneLine).2
    simp only [Text.oneLine_cons]
    exact ⟨by decide, by decide, by decide, ih last⟩
  | case4 b c rest _ ih =>
    obtain ⟨first, rest⟩ := Text.oneLine_cons.mp oneLine
    exact Text.oneLine_cons.mpr ⟨first, ih rest⟩

private theorem isChain_escapeTerminator (s : Text) : (escapeTerminator s).IsChain Apart := by
  fun_induction escapeTerminator s with
  | case1 => exact .nil
  | case2 b => exact .singleton b
  | case3 b c rest terminator ih =>
    have afterSlash := ih.cons fun next _ => apart_of_left (a := Text.slash) (by decide) next
    have escaped := List.IsChain.cons_cons (apart_of_left (a := 92) (by decide) _) afterSlash
    exact .cons_cons (apart_of_right 42 (by decide)) escaped
  | case4 b c rest plain ih =>
    refine ih.cons fun next head => ?_
    rw [head?_escapeTerminator] at head
    obtain rfl : c = next := by simpa using head
    simpa [Apart] using plain

def EndsBare (line : Text) : Prop := ∀ byte ∈ line.getLast?, isSpacing byte = false

private theorem endsBare_nil : EndsBare [] := fun _ last => by cases last

private theorem endsBare_of_getLast? {line : Text} {last : UInt8} (ends : line.getLast? = some last)
    (other : isSpacing last = false) : EndsBare line := by
  intro byte found
  obtain rfl : last = byte := Option.some.inj (ends.symm.trans found)
  exact other

private theorem endsBare_trimmed (line : Text) :
    EndsBare (line.reverse.dropWhile isSpacing).reverse := by
  intro byte last
  rw [List.getLast?_reverse] at last
  have first := List.head?_dropWhile_not isSpacing line.reverse
  rw [Option.mem_def.mp last] at first
  simpa using first

private theorem EndsBare.trimStart {line : Text} (bare : EndsBare line) (start : Text) :
    EndsBare (Text.trimStart start line) := by
  rw [Text.trimStart]
  cases trimmed : start.isPrefixOf? line with
  | none => exact bare
  | some rest =>
    intro byte last
    rw [Option.getD_some, Option.mem_def] at last
    refine bare byte ?_
    rw [← List.isPrefixOf?_eq_some_iff_append_eq.mp trimmed, List.getLast?_append, last]
    rfl

private theorem endsBare_docLine (line : Text) : EndsBare (docLine line) := by
  rw [EndsBare, docLine, getLast?_escapeTerminator]
  exact (endsBare_trimmed line).trimStart " "

private theorem oneLine_docLine {line : Text} (oneLine : line.OneLine) :
    (docLine line).OneLine := by
  refine oneLine_escapeTerminator (oneLine.of_subset ?_)
  refine List.Subset.trans (Text.trimStart_subset " " _) fun byte member => ?_
  rw [List.mem_reverse] at member
  exact List.mem_reverse.mp ((List.dropWhile_sublist isSpacing).subset member)

end Declaration

namespace Layout

open Declaration (EndsBare docLine docLines)

/-- What every line of a doc comment is like but the last. -/
structure Harmless (line : Text) : Prop where
  oneLine : line.OneLine
  apart : line.IsChain Apart
  bare : EndsBare line

private theorem isChain_replicate_append {line : Text} (apart : line.IsChain Apart)
    (columns : Nat) : (List.replicate columns 32 ++ line).IsChain Apart := by
  induction columns with
  | zero => exact apart
  | succ columns ih => exact ih.cons fun next _ => apart_of_left (by decide) next

private theorem Harmless.shift {line : Text} (harmless : Harmless line) (columns : Nat) :
    Harmless (shift columns line) := by
  by_cases empty : line = []
  · rw [empty] at harmless ⊢
    exact harmless
  · refine ⟨oneLine_shift harmless.oneLine columns, ?_, ?_⟩
    · rw [shift_of_ne_nil empty]
      exact isChain_replicate_append harmless.apart columns
    · rw [shift_of_ne_nil empty, EndsBare, List.getLast?_append_of_ne_nil _ empty]
      exact harmless.bare

private theorem Harmless.starred {line : Text} (harmless : Harmless line) :
    Harmless (starred line) := by
  rw [Layout.starred]
  split
  · exact ⟨by decide, by decide, Declaration.endsBare_of_getLast? rfl rfl⟩
  · rename_i nonempty
    have spaced : (32 :: line).IsChain Apart :=
      harmless.apart.cons fun next _ => apart_of_left (by decide) next
    have apart : (32 :: 42 :: 32 :: line).IsChain Apart :=
      .cons_cons (apart_of_left (by decide) _) (.cons_cons (apart_of_right _ (by decide)) spaced)
    refine ⟨Text.oneLine_append.mpr ⟨by decide, harmless.oneLine⟩, apart, ?_⟩
    rw [EndsBare, List.getLast?_append_of_ne_nil _ nonempty]
    exact harmless.bare

private theorem isChain_block {lines : List Text} (harmless : ∀ line ∈ lines, Harmless line) :
    (block lines).IsChain Apart := by
  induction lines with
  | nil => exact .nil
  | cons line lines ih =>
    have first := (harmless line List.mem_cons_self).apart
    have rest := ih fun other member => harmless other (List.mem_cons_of_mem line member)
    refine List.isChain_append.mpr ⟨?_, rest, fun last _ next head => ?_⟩
    · exact first.cons fun next _ => apart_of_left (by decide) next
    · cases lines with
      | nil => cases head
      | cons other others =>
        obtain rfl : Text.newline = next := by simpa using head
        exact apart_of_right last (by decide)

theorem docBlock_eq {lines : List Text} (nonempty : lines ≠ []) :
    docBlock lines = block ("/**" :: (lines.map starred ++ [Text.ofString " */"])) := by
  rw [docBlock, if_neg nonempty]
  simp

theorem oneLine_starred {line : Text} (oneLine : line.OneLine) : (starred line).OneLine := by
  rw [starred]
  split
  · decide
  · exact Text.oneLine_append.mpr ⟨by decide, oneLine⟩

/-- The lines of an indented doc comment without the last. -/
def openLines (columns : Nat) (lines : List Text) : List Text :=
  shift columns "/**" :: lines.map fun line => shift columns (starred line)

private theorem indent_docBlock {lines : List Text} (nonempty : lines ≠ [])
    (oneLine : ∀ line ∈ lines, line.OneLine) (columns : Nat) :
    indent columns (docBlock lines) = block (openLines columns lines ++ [shift columns " */"]) := by
  rw [docBlock_eq nonempty, indent_block]
  · simp [openLines, Function.comp_def]
  · intro line member
    rw [List.mem_cons, List.mem_append, List.mem_map, List.mem_singleton] at member
    rcases member with rfl | ⟨inner, listed, rfl⟩ | rfl
    · decide
    · exact oneLine_starred (oneLine inner listed)
    · decide

section

variable {lines : List Text} (harmless : ∀ line ∈ lines, Harmless line)
include harmless

private theorem harmless_openLines (columns : Nat) :
    ∀ line ∈ openLines columns lines, Harmless line := by
  intro line member
  rcases List.mem_cons.mp member with rfl | inner
  · have opening : Harmless "/**" :=
      ⟨by decide, by decide, Declaration.endsBare_of_getLast? rfl rfl⟩
    exact opening.shift columns
  · obtain ⟨source, listed, rfl⟩ := List.mem_map.mp inner
    exact (harmless source listed).starred.shift columns

variable (nonempty : lines ≠ [])
include nonempty

private theorem split_indent_docBlock (columns : Nat) :
    Text.split Text.newline (indent columns (docBlock lines)) =
      [] :: (openLines columns lines ++ [shift columns " */"]) := by
  rw [indent_docBlock nonempty fun line member => (harmless line member).oneLine]
  refine split_block fun line member => ?_
  rcases List.mem_append.mp member with inner | last
  · exact (harmless_openLines harmless columns line inner).oneLine
  · rw [List.mem_singleton.mp last]
    exact oneLine_shift (by decide) columns

/-- The last line, up to its slash, is as harmless as the others, so nothing before the slash ends
the comment. -/
private theorem terminator_indent_docBlock (columns : Nat) :
    (∃! i, Text.ofString "*/" <+: (indent columns (docBlock lines)).drop i) ∧
      Text.ofString "*/" <:+ indent columns (docBlock lines) := by
  have star : shift columns " *" = List.replicate columns 32 ++ [32] ++ [42] := by
    rw [shift_of_ne_nil (by decide), List.append_assoc]
    rfl
  have closing : shift columns " */" = shift columns " *" ++ [Text.slash] := by
    rw [shift_of_ne_nil (by decide), shift_of_ne_nil (by decide), List.append_assoc]
    rfl
  have opened : indent columns (docBlock lines) =
      block (openLines columns lines ++ [shift columns " *"]) ++ [Text.slash] := by
    rw [indent_docBlock nonempty fun line member => (harmless line member).oneLine, closing]
    simp
  rw [opened]
  refine terminator_once (isChain_block fun line member => ?_) ?_
  · rcases List.mem_append.mp member with inner | last
    · exact harmless_openLines harmless columns line inner
    · rw [List.mem_singleton.mp last]
      have harmlessStar : Harmless " *" :=
        ⟨by decide, by decide, Declaration.endsBare_of_getLast? rfl rfl⟩
      exact harmlessStar.shift columns
  · simp [star, List.getLast?_cons]

private theorem endsBare_of_mem_split_indent (columns : Nat) :
    ∀ line ∈ Text.split Text.newline (indent columns (docBlock lines)), EndsBare line := by
  intro line member
  rw [split_indent_docBlock harmless nonempty columns, List.mem_cons, List.mem_append] at member
  rcases member with rfl | inner | last
  · exact Declaration.endsBare_nil
  · exact (harmless_openLines harmless columns line inner).bare
  · rw [List.mem_singleton.mp last, shift_of_ne_nil (by decide)]
    exact Declaration.endsBare_of_getLast? (Text.getLast?_append_of_some rfl) rfl

end

private theorem harmless_docLine {line : Text} (oneLine : line.OneLine) : Harmless (docLine line) :=
  ⟨Declaration.oneLine_docLine oneLine, Declaration.isChain_escapeTerminator _,
    Declaration.endsBare_docLine line⟩

/-- The text of a schema comment, whatever it is, stays inside its doc comment. There is none for no
text. Otherwise a star directly before a slash is found once, at the very end, between the first and
the last line there is one for each line of the text, and no line ends in a space or a tab. -/
theorem docComment_contained (text : Text) (columns : Nat) :
    let doc := indent columns (docBlock (docLines true text))
    (text = [] → doc = []) ∧
    (text ≠ [] →
      (∃! i, Text.ofString "*/" <+: doc.drop i) ∧ Text.ofString "*/" <:+ doc ∧
      Text.split Text.newline doc = [] :: shift columns "/**" ::
        ((Text.split Text.newline text).map (fun line => shift columns (starred (docLine line))) ++
          [shift columns " */"]) ∧
      ∀ line ∈ Text.split Text.newline doc, EndsBare line) := by
  intro doc
  constructor
  · rintro rfl
    rfl
  · intro written
    have lines : docLines true text = (Text.split Text.newline text).map docLine := by
      simp [docLines, written]
    have harmless : ∀ line ∈ docLines true text, Harmless line := by
      intro line member
      rw [lines] at member
      obtain ⟨source, part, rfl⟩ := List.mem_map.mp member
      exact harmless_docLine (Text.oneLine_of_mem_split part)
    have nonempty : docLines true text ≠ [] := by
      rw [lines, Ne, List.map_eq_nil_iff]
      exact List.splitOn_ne_nil _ _
    obtain ⟨once, last⟩ := terminator_indent_docBlock harmless nonempty columns
    refine ⟨once, last, ?_, endsBare_of_mem_split_indent harmless nonempty columns⟩
    rw [split_indent_docBlock harmless nonempty columns, openLines, lines, List.map_map]
    rfl

/-- Stars and slashes at the ends of lines, with blanks around them. -/
theorem docComment_contained_stars :
    let text : Text := Text.ofString "**/ \n/ *\t\n  */*/"
    let doc := indent 2 (docBlock (docLines true text))
    text ≠ [] ∧
      doc = Text.ofString "\n  /**\n   * **\\/\n   * / *\n   *  *\\/*\\/\n   */" ∧
      (∃! i, Text.ofString "*/" <+: doc.drop i) ∧
      ∀ line ∈ Text.split Text.newline doc, EndsBare line := by
  intro text doc
  have written : text ≠ [] := by decide +kernel
  obtain ⟨once, -, -, bare⟩ := (docComment_contained text 2).2 written
  exact ⟨written, by decide +kernel, once, bare⟩

end Layout

end ProtoTypings
