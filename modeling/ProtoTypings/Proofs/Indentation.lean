import ProtoTypings.Layout.Service
import ProtoTypings.Proofs.Lines
import ProtoTypings.Proofs.Position

set_option autoImplicit false
set_option relaxedAutoImplicit false

/-!
Indentation level by level. To indent twice is to indent once by the sum, and indenting goes through
the lines of a text one by one. So a message inside others, whose text is indented again at every
level, stands in the file as it is laid out alone, moved to the right once.
-/

namespace ProtoTypings

private theorem Text.split_append_cons (separator : UInt8) (s t : Text) :
    split separator (s ++ separator :: t) = split separator s ++ split separator t :=
  List.splitOnP_append_cons s t (beq_self_eq_true separator)

namespace Declaration

/-- A message with the one at a position inside it replaced. The message itself is at the empty
position. -/
def Message.replaceAt {α : Type} (other : Message α) : List Nat → Message α → Message α
  | [], _ => other
  | index :: rest, outer =>
    { outer with messages := outer.messages.modify index (replaceAt other rest) }

/-- A file with the message at a position replaced, which is inside the one at index `top`. -/
def MessageFile.replaceAt (file : MessageFile) (top : Nat) (inner : List Nat)
    (other : Message TypeText) : MessageFile :=
  { file with messages := file.messages.modify top (Message.replaceAt other inner) }

private theorem modify_eq_self {α : Type} {nodes : List α} {index : Nat} {node : α}
    (found : nodes[index]? = some node) {change : α → α} (same : change node = node) :
    nodes.modify index change = nodes := by
  obtain ⟨bound, rfl⟩ := List.getElem?_eq_some_iff.mp found
  rw [List.modify_eq_take_cons_drop bound, same, ← List.drop_eq_getElem_cons bound,
    List.take_append_drop]

private theorem Message.modify_replaceAt_self {α : Type} {messages : List (Message α)} {top : Nat}
    {inner : List Nat} {nested : Message α}
    (found : nodeAt? Message.messages messages (top :: inner) = some nested) :
    messages.modify top (replaceAt nested inner) = messages := by
  induction inner generalizing messages top with
  | nil => exact modify_eq_self found rfl
  | cons next rest ih =>
    obtain ⟨outer, root, below⟩ := exists_root_of_nodeAt? found
    refine modify_eq_self root ?_
    rw [replaceAt, ih below]
    cases outer
    rfl

theorem MessageFile.replaceAt_self {file : MessageFile} {top : Nat} {inner : List Nat}
    {nested : Message TypeText} (found : file.messageAt? (top :: inner) = some nested) :
    file.replaceAt top inner nested = file := by
  rw [replaceAt, Message.modify_replaceAt_self found]

end Declaration

namespace Layout

open Declaration (Message MessageFile)

private theorem shift_shift (m n : Nat) (line : Text) :
    shift m (shift n line) = shift (m + n) line := by
  by_cases empty : line = []
  · rw [empty]
    rfl
  · have moved : List.replicate n 32 ++ line ≠ [] := List.append_ne_nil_of_right_ne_nil _ empty
    rw [shift_of_ne_nil empty, shift_of_ne_nil empty, shift_of_ne_nil moved, ← List.append_assoc,
      List.replicate_append_replicate]

private theorem shift_zero (line : Text) : shift 0 line = line := by
  by_cases empty : line = []
  · rw [empty]
    rfl
  · exact shift_of_ne_nil empty 0

private theorem shift_eq_nil_iff {columns : Nat} {line : Text} :
    shift columns line = [] ↔ line = [] := by
  constructor
  · intro moved
    by_contra nonempty
    rw [shift_of_ne_nil nonempty] at moved
    exact nonempty (List.append_eq_nil_iff.mp moved).2
  · rintro rfl
    rfl

private theorem split_indent (columns : Nat) (s : Text) :
    Text.split Text.newline (indent columns s) =
      (Text.split Text.newline s).map (shift columns) := by
  refine List.splitOn_intercalate Text.newline (fun line member => ?_) ?_
  · obtain ⟨source, part, rfl⟩ := List.mem_map.mp member
    exact oneLine_shift (Text.oneLine_of_mem_split part) columns
  · rw [Ne, List.map_eq_nil_iff]
    exact List.splitOn_ne_nil _ _

private theorem indent_indent (m n : Nat) (s : Text) :
    indent m (indent n s) = indent (m + n) s := by
  rw [indent, split_indent, List.map_map, indent]
  exact congrArg _ (List.map_congr_left fun line _ => shift_shift m n line)

private theorem indent_zero (s : Text) : indent 0 s = s := by
  have same : (Text.split Text.newline s).map (shift 0) = Text.split Text.newline s :=
    List.map_id'' shift_zero _
  rw [indent, same]
  exact List.intercalate_splitOn Text.newline

private theorem indent_append_newline (columns : Nat) (s t : Text) :
    indent columns (s ++ Text.newline :: t) =
      indent columns s ++ Text.newline :: indent columns t := by
  obtain ⟨first, lines, whole⟩ := List.exists_cons_of_ne_nil (List.splitOn_ne_nil Text.newline s)
  obtain ⟨next, more, rest⟩ := List.exists_cons_of_ne_nil (List.splitOn_ne_nil Text.newline t)
  rw [indent, indent, indent, Text.split_append_cons, Text.split, Text.split, whole, rest]
  simp only [List.cons_append, List.map_cons, List.map_append, ← append_block_eq_join,
    block_append, block_cons, List.append_assoc]

private theorem indent_append_block (columns : Nat) (s : Text) (parts : List Text) :
    indent columns (s ++ block parts) = indent columns s ++ block (parts.map (indent columns)) := by
  induction parts generalizing s with
  | nil => simp
  | cons part parts ih =>
    rw [block_cons, ← List.append_assoc, ih, indent_append_newline, List.map_cons, block_cons,
      List.append_assoc]

/-- A text in which a message stands, moved to the right, as lines of its own between parts that do
not depend on it. -/
def Carries (columns : Nat) (text : Message TypeText → Text) : Prop :=
  ∃ before below, ∀ other, text other = before ++ block (indent columns (message other) :: below)

section

variable {columns : Nat} {text : Message TypeText → Text} (carries : Carries columns text)
include carries

private theorem Carries.congr {text' : Message TypeText → Text}
    (same : ∀ other, text' other = text other) : Carries columns text' := by
  obtain ⟨before, below, whole⟩ := carries
  exact ⟨before, below, fun other => (same other).trans (whole other)⟩

private theorem Carries.between (front : Text) (back : List Text) :
    Carries columns fun other => front ++ text other ++ block back := by
  obtain ⟨before, below, whole⟩ := carries
  refine ⟨front ++ before, below ++ back, fun other => ?_⟩
  simp only [whole, block_cons, block_append, List.append_assoc, List.cons_append]

private theorem Carries.indent (more : Nat) :
    Carries (more + columns) fun other => indent more (text other) := by
  obtain ⟨before, below, whole⟩ := carries
  refine ⟨Layout.indent more before, below.map (Layout.indent more), fun other => ?_⟩
  simp only [whole, indent_append_block, List.map_cons, indent_indent]

end

private theorem carries_message : Carries 0 fun other => block [message other] :=
  ⟨[], [], fun other => by rw [indent_zero, List.nil_append]⟩

private theorem nestedMessages_eq_indent (messages : List (Message TypeText)) :
    nestedMessages messages = indent 2 (block (messages.map message)) := by
  have parts : nestedMessages messages = block ((messages.map message).map (indent 2)) := by
    induction messages with
    | nil => rfl
    | cons m rest ih =>
      rw [nestedMessages, ih, ← block_append, List.singleton_append, List.map_cons, List.map_cons]
  rw [parts, ← List.nil_append (block (messages.map message)), indent_append_block]
  rfl

private theorem append_block_append_block (s : Text) (lines more : List Text) :
    s ++ block lines ++ block more = s ++ block (lines ++ more) := by
  rw [block_append, List.append_assoc]

/-- Around the messages inside it a message is the same whatever they are. -/
private theorem message_frame (outer : Message TypeText) : ∃ front back, ∀ messages,
    message { outer with messages } = front ++ nestedMessages messages ++ block back :=
  ⟨_, _, fun _ => (append_block_append_block _ _ _).trans (append_block_append_block _ _ _)⟩

private theorem messageFile_frame (file : MessageFile) : ∃ front back, ∀ messages,
    messageFile { file with messages } =
      front ++ block (messages.map message) ++ block back ++ [Text.newline] := by
  refine ⟨Text.join [Text.newline] (fileHeader file.package file.protoFile) ++
    block (importLines file.imports), file.enums.map enum ++ file.extensions.map extension,
    fun messages => ?_⟩
  rw [← append_block_append_block]
  rfl

section

variable {columns : Nat} {messages : List (Message TypeText)} {top : Nat}

private theorem carries_modify {root : Message TypeText} (found : messages[top]? = some root)
    {change : Message TypeText → Message TypeText → Message TypeText}
    (carries : Carries columns fun other => block [message (change other root)]) :
    Carries columns fun other => block ((messages.modify top (change other)).map message) := by
  obtain ⟨bound, rfl⟩ := List.getElem?_eq_some_iff.mp found
  refine (carries.between (block ((messages.take top).map message))
    ((messages.drop (top + 1)).map message)).congr fun other => ?_
  rw [List.modify_eq_take_cons_drop bound, List.map_append, List.map_cons, ← block_append,
    ← block_append, List.append_assoc, List.singleton_append]

private theorem carries_messages {inner : List Nat} {nested : Message TypeText}
    (found : nodeAt? Message.messages messages (top :: inner) = some nested) :
    Carries (2 * inner.length) fun other =>
      block ((messages.modify top (Message.replaceAt other inner)).map message) := by
  induction inner generalizing messages top with
  | nil => exact carries_modify found carries_message
  | cons next rest ih =>
    obtain ⟨outer, root, below⟩ := exists_root_of_nodeAt? found
    obtain ⟨front, back, frame⟩ := message_frame outer
    -- Whatever the messages inside `outer` carry, `outer` indents it with them once more.
    have deeper : Carries (2 * (next :: rest).length) fun other =>
        nestedMessages (outer.messages.modify next (Message.replaceAt other rest)) := by
      have indented := (ih below).indent 2
      rw [List.length_cons, Nat.mul_succ, Nat.add_comm]
      exact indented.congr fun other => nestedMessages_eq_indent _
    refine carries_modify root ((deeper.between (Text.newline :: front) back).congr fun other => ?_)
    rw [Message.replaceAt, frame]
    simp

end

private theorem messageFile_replaceAt {file : MessageFile} {top : Nat} {inner : List Nat}
    {nested : Message TypeText} (found : file.messageAt? (top :: inner) = some nested) :
    ∃ before after, ∀ other, messageFile (file.replaceAt top inner other) =
      before ++ Text.newline :: indent (2 * inner.length) (message other) ++
        Text.newline :: after := by
  obtain ⟨front, back, frame⟩ := messageFile_frame file
  obtain ⟨before, below, whole⟩ := (carries_messages found).between front back
  -- If nothing is declared after the message, the line end at the end of the file follows it.
  obtain ⟨after, ending⟩ : ∃ after, block below ++ [Text.newline] = Text.newline :: after := by
    cases below with
    | nil => exact ⟨[], rfl⟩
    | cons line lines => exact ⟨line ++ block lines ++ [Text.newline], rfl⟩
  refine ⟨before, after, fun other => ?_⟩
  calc messageFile (file.replaceAt top inner other)
      = before ++ block (indent (2 * inner.length) (message other) :: below) ++ [Text.newline] := by
        rw [MessageFile.replaceAt, frame, ← whole]
    _ = before ++ Text.newline :: indent (2 * inner.length) (message other) ++
          (block below ++ [Text.newline]) := by
        simp only [block_cons, List.append_assoc]
    _ = _ := by rw [ending]

/-- To indent twice is to indent by the sum; every line stays a line, and an empty one stays empty.
So a message inside others stands in the generated file as it is laid out alone, moved by two columns
for every level, and the rest of the file would be the same with any other message in its place. -/
theorem nested_rendering_shifted (m n : Nat) (s : Text) {file : MessageFile}
    (named : file.protoFile ≠ []) {top : Nat} {inner : List Nat} {nested : Message TypeText}
    (found : file.messageAt? (top :: inner) = some nested) :
    let lines := Text.split Text.newline
    indent m (indent n s) = indent (m + n) s ∧
    lines (indent n s) = (lines s).map (shift n) ∧
    (lines (indent n s)).length = (lines s).length ∧
    (∀ i : Nat, (lines (indent n s))[i]? = some [] ↔ (lines s)[i]? = some []) ∧
    ∃ before after : Text,
      renderMessages file = .ok (before ++ Text.newline ::
        indent (2 * inner.length) (message nested) ++ Text.newline :: after) ∧
      ∀ other, renderMessages (file.replaceAt top inner other) = .ok (before ++ Text.newline ::
        indent (2 * inner.length) (message other) ++ Text.newline :: after) := by
  intro lines
  obtain ⟨before, after, whole⟩ := messageFile_replaceAt found
  have rendered (other : Message TypeText) : renderMessages (file.replaceAt top inner other) =
      .ok (before ++ Text.newline :: indent (2 * inner.length) (message other) ++
        Text.newline :: after) := by
    rw [← whole other]
    exact if_neg named
  have moved : lines (indent n s) = (lines s).map (shift n) := split_indent n s
  refine ⟨indent_indent m n s, moved, ?_, fun i => ?_, before, after, ?_, rendered⟩
  · rw [moved, List.length_map]
  · rw [moved, List.getElem?_map, Option.map_eq_some_iff]
    simp [shift_eq_nil_iff]
  · rw [← rendered nested, MessageFile.replaceAt_self found]

/-- A message two levels deep, with an empty line in its text. -/
def box : Message TypeText where
  name := "Box"
  declaredName := "Cabinet.Drawer.Box"
  comment := ["Holds", [], "things."]

def cabinetFile : MessageFile where
  protoFile := "cabinet.proto"
  messages := [{
    name := "Cabinet"
    messages := [
      { name := "Shelf" },
      { name := "Drawer", messages := [box], enums := [{ name := "Side" }] }] }]

theorem nested_rendering_shifted_cabinetFile :
    cabinetFile.protoFile ≠ [] ∧ cabinetFile.messageAt? [0, 1, 0] = some box ∧
      indent 2 (indent 2 "\nclass\n\n  end") = Text.ofString "\n    class\n\n      end" ∧
      ∃ before after : Text, renderMessages cabinetFile =
        .ok (before ++ Text.newline :: indent 4 (message box) ++ Text.newline :: after) := by
  have named : cabinetFile.protoFile ≠ [] := by decide
  have found : cabinetFile.messageAt? [0, 1, 0] = some box := rfl
  obtain ⟨twice, -, -, -, before, after, rendered, -⟩ :=
    nested_rendering_shifted 2 2 "\nclass\n\n  end" named found
  exact ⟨named, found, twice.trans (by decide +kernel), before, after, rendered⟩

end Layout

end ProtoTypings
