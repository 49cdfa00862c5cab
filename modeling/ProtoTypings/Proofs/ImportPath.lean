import Mathlib.Data.List.Basic
import ProtoTypings.Path
import ProtoTypings.Proofs.Lines

set_option autoImplicit false
set_option relaxedAutoImplicit false

/-!
Import paths tell modules apart. Between clean paths, both ways of writing an import path can be
undone: the steps up show how much the importing file shares with the module, and the rest is what
they do not share. No import path of a generated module is the name of a runtime module.
-/

namespace ProtoTypings.Path

def up : Text := [Text.dot, Text.dot]

theorem segments_ne_nil (path : Text) : segments path ≠ [] := List.splitOn_ne_nil _ _

theorem ofSegments_segments (path : Text) : ofSegments (segments path) = path :=
  List.intercalate_splitOn Text.slash

theorem segments_ofSegments {parts : List Text} (nonempty : parts ≠ [])
    (whole : ∀ part ∈ parts, Text.slash ∉ part) : segments (ofSegments parts) = parts :=
  List.splitOn_intercalate Text.slash whole nonempty

private theorem segments_cons (byte : UInt8) (path : Text) :
    segments (byte :: path) = if byte = Text.slash then [] :: segments path
      else (segments path).modifyHead (byte :: ·) := by
  rw [segments, Text.split, List.splitOn_cons_eq_if_modifyHead]
  simp only [beq_iff_eq]
  rfl

theorem slash_notMem_segment {path part : Text} (member : part ∈ segments path) :
    Text.slash ∉ part := (Text.of_mem_split member).2

private theorem segments_append (path : Text) : ∃ directories last, ∀ ending : Text,
    Text.slash ∉ ending → segments (path ++ ending) = directories ++ [last ++ ending] := by
  induction path with
  | nil => exact ⟨[], [], fun ending plain => List.splitOn_eq_singleton plain⟩
  | cons byte rest ih =>
    obtain ⟨directories, last, split⟩ := ih
    by_cases slash : byte = Text.slash
    · refine ⟨[] :: directories, last, fun ending plain => ?_⟩
      rw [List.cons_append, segments_cons, if_pos slash, split ending plain, List.cons_append]
    · match directories, split with
      | [], split =>
        refine ⟨[], byte :: last, fun ending plain => ?_⟩
        rw [List.cons_append, segments_cons, if_neg slash, split ending plain]
        rfl
      | first :: others, split =>
        refine ⟨(byte :: first) :: others, last, fun ending plain => ?_⟩
        rw [List.cons_append, segments_cons, if_neg slash, split ending plain]
        rfl

theorem ofSegments_cons (part : Text) {rest : List Text} (nonempty : rest ≠ []) :
    ofSegments (part :: rest) = part ++ Text.slash :: ofSegments rest := by
  obtain ⟨next, others, rfl⟩ := List.exists_cons_of_ne_nil nonempty
  simp [ofSegments, Text.join, List.intercalate_cons_cons]

private theorem suffix_ofSegments (parts : List Text) (last : Text) :
    last <:+ ofSegments (parts ++ [last]) := by
  induction parts with
  | nil => simp [ofSegments, Text.join]
  | cons part rest ih =>
    rw [List.cons_append, ofSegments_cons part (by simp)]
    exact ih.trans ((List.suffix_cons _ _).trans (List.suffix_append _ _))

private theorem climb_succ (steps : Nat) (target : Text) :
    climb (steps + 1) target = up ++ Text.slash :: climb steps target := by
  simp only [climb, List.replicate_succ, List.flatten_cons, List.append_assoc]
  rfl

private theorem segments_climb (steps : Nat) (target : Text) :
    segments (climb steps target) = List.replicate steps up ++ segments target := by
  induction steps with
  | zero => rfl
  | succ steps ih =>
    have plain : Text.slash ∉ up := by decide
    rw [climb_succ, List.replicate_succ, List.cons_append, ← ih]
    exact List.splitOn_append_cons_self_of_not_mem plain _

theorem sharedLength_le (origins targets : List Text) :
    sharedLength origins targets ≤ origins.length ∧
      sharedLength origins targets ≤ targets.length := by
  fun_induction sharedLength origins targets with
  | case1 a as bs ih => exact ⟨Nat.succ_le_succ ih.1, Nat.succ_le_succ ih.2⟩
  | case2 | case3 => exact ⟨Nat.zero_le _, Nat.zero_le _⟩

private theorem take_sharedLength (origins targets : List Text) :
    targets.take (sharedLength origins targets) = origins.take (sharedLength origins targets) := by
  fun_induction sharedLength origins targets with
  | case1 a as bs ih => rw [List.take_succ_cons, List.take_succ_cons, ih]
  | case2 | case3 => rw [List.take_zero, List.take_zero]

/-- The directories from the root down to a cleaned one. -/
def directories (origin : Text) : List Text := if origin = [Text.dot] then [] else segments origin

/-- How a way begins that climbs so many steps. -/
def ascent (steps : Nat) : List Text := if steps = 0 then [[Text.dot]] else List.replicate steps up

/-- How many directories a cleaned one has in common with those of a target. -/
def sharedDepth (origin target : Text) : Nat :=
  sharedLength (directories origin) (segments target).dropLast

theorem sharedDepth_le (origin target : Text) :
    sharedDepth origin target ≤ (directories origin).length ∧
      sharedDepth origin target < (segments target).length := by
  obtain ⟨inOrigin, inTarget⟩ := sharedLength_le (directories origin) (segments target).dropLast
  have positive : 0 < (segments target).length := List.length_pos_of_ne_nil (segments_ne_nil target)
  rw [List.length_dropLast] at inTarget
  refine ⟨inOrigin, ?_⟩
  rw [sharedDepth]
  omega

theorem take_sharedDepth (origin target : Text) :
    (segments target).take (sharedDepth origin target) =
      (directories origin).take (sharedDepth origin target) := by
  have taken := take_sharedLength (directories origin) (segments target).dropLast
  have bound := (sharedDepth_le origin target).2
  rw [← sharedDepth, List.dropLast_eq_take, List.take_take, Nat.min_eq_left (by omega)] at taken
  exact taken

theorem drop_sharedDepth_ne_nil (origin target : Text) :
    (segments target).drop (sharedDepth origin target) ≠ [] := by
  rw [Ne, List.drop_eq_nil_iff]
  exact Nat.not_le.mpr (sharedDepth_le origin target).2

private theorem segments_here (target : Text) :
    segments ("./" ++ target) = [Text.dot] :: segments target :=
  List.splitOn_append_cons_self_of_not_mem (by decide : Text.slash ∉ [Text.dot]) _

/-- The shortest way climbs out of the directories that the target is not in and goes on with what
is left of the target. -/
theorem segments_shortestFrom (origin target : Text) :
    segments (shortestFrom origin target) =
      ascent ((directories origin).length - sharedDepth origin target) ++
        (segments target).drop (sharedDepth origin target) := by
  have way : shortestFrom origin target =
      if (directories origin).length = sharedDepth origin target then
        "./" ++ ofSegments ((segments target).drop (sharedDepth origin target))
      else climb ((directories origin).length - sharedDepth origin target)
        (ofSegments ((segments target).drop (sharedDepth origin target))) := rfl
  obtain ⟨inOrigin, inTarget⟩ := sharedDepth_le origin target
  have nonempty := drop_sharedDepth_ne_nil origin target
  have rest : segments (ofSegments ((segments target).drop (sharedDepth origin target))) =
      (segments target).drop (sharedDepth origin target) :=
    segments_ofSegments nonempty fun part member =>
      slash_notMem_segment (List.mem_of_mem_drop member)
  rw [way, ascent]
  split
  · rw [if_pos (by omega), segments_here, rest, List.singleton_append]
  · rw [if_neg (by omega), segments_climb, rest]

private theorem length_segments (path : Text) :
    (segments path).length = path.count Text.slash + 1 := by
  induction path with
  | nil => rfl
  | cons byte rest ih =>
    rw [segments_cons, List.count_cons]
    split
    · rename_i slash
      rw [List.length_cons, ih, if_pos (by simp [slash])]
    · rename_i other
      rw [List.length_modifyHead, ih, if_neg (by simp [other])]

private theorem segments_rootedFrom (origin target : Text) :
    segments (rootedFrom origin target) =
      ascent (directories origin).length ++ segments target := by
  rw [rootedFrom, directories]
  split
  · exact segments_here target
  · rw [segments_climb, ascent, length_segments, if_neg (Nat.succ_ne_zero _)]

/-- The way from a cleaned directory to a module in a style. -/
def route (style : ImportStyle) (origin target : Text) : Text :=
  match style with
  | .fromRoot => rootedFrom origin target
  | .relative => shortestFrom origin target

theorem segments_route (style : ImportStyle) (origin target : Text) :
    ∃ steps rest, steps ≤ (directories origin).length ∧ rest ≠ [] ∧
      segments target = (directories origin).take ((directories origin).length - steps) ++ rest ∧
      segments (route style origin target) = ascent steps ++ rest := by
  cases style with
  | fromRoot =>
    refine ⟨_, segments target, Nat.le_refl _, segments_ne_nil target, ?_,
      segments_rootedFrom origin target⟩
    rw [Nat.sub_self, List.take_zero, List.nil_append]
  | relative =>
    refine ⟨_, _, Nat.sub_le _ _, drop_sharedDepth_ne_nil origin target, ?_,
      segments_shortestFrom origin target⟩
    rw [Nat.sub_sub_self (sharedDepth_le origin target).1, ← take_sharedDepth,
      List.take_append_drop]

private theorem replicate_up_append {steps steps' : Nat} {rest rest' : List Text}
    (plain : up ∉ rest) (plain' : up ∉ rest')
    (same : List.replicate steps up ++ rest = List.replicate steps' up ++ rest') :
    steps = steps' ∧ rest = rest' := by
  have counts := congrArg (List.count up) same
  rw [List.count_append, List.count_append, List.count_eq_zero.mpr plain,
    List.count_eq_zero.mpr plain', List.count_replicate_self, List.count_replicate_self] at counts
  obtain rfl : steps = steps' := counts
  exact ⟨rfl, List.append_cancel_left same⟩

private theorem ascent_append {steps steps' : Nat} {rest rest' : List Text}
    (plain : up ∉ rest) (plain' : up ∉ rest')
    (same : ascent steps ++ rest = ascent steps' ++ rest') : steps = steps' ∧ rest = rest' := by
  have apart : [Text.dot] ≠ up := by decide
  match steps, steps' with
  | 0, 0 => exact ⟨rfl, (List.cons.inj same).2⟩
  | 0, _ + 1 => exact absurd (List.cons.inj same).1 apart
  | _ + 1, 0 => exact absurd (List.cons.inj same).1.symm apart
  | _ + 1, _ + 1 => exact replicate_up_append plain plain' same

private theorem route_inj {style : ImportStyle} {origin target target' : Text}
    (plain : up ∉ segments target) (plain' : up ∉ segments target')
    (same : route style origin target = route style origin target') : target = target' := by
  obtain ⟨steps, rest, -, -, parts, way⟩ := segments_route style origin target
  obtain ⟨steps', rest', -, -, parts', way'⟩ := segments_route style origin target'
  rw [parts] at plain
  rw [parts'] at plain'
  have ways : ascent steps ++ rest = ascent steps' ++ rest' := by rw [← way, ← way', same]
  obtain ⟨rfl, rfl⟩ := ascent_append (fun member => plain (List.mem_append_right _ member))
    (fun member => plain' (List.mem_append_right _ member)) ways
  rw [← ofSegments_segments target, ← ofSegments_segments target', parts, parts']

def IsName (segment : Text) : Prop := segment ≠ [] ∧ segment ≠ [Text.dot] ∧ segment ≠ up

instance (segment : Text) : Decidable (IsName segment) :=
  inferInstanceAs (Decidable (_ ∧ _ ∧ _))

/-- A relative path that is written without detours. -/
def IsClean (path : Text) : Prop := ∀ segment ∈ segments path, IsName segment

instance (path : Text) : Decidable (IsClean path) :=
  inferInstanceAs (Decidable (∀ segment ∈ segments path, IsName segment))

/-- A relative path of a schema file that is written without detours. -/
structure IsCleanSchema (path : Text) : Prop where
  segments : ∀ segment ∈ segments path, segment ≠ [] ∧ segment ≠ [Text.dot] ∧ segment ≠ up
  extension : Text.ofString ".proto" <:+ path

instance (path : Text) : Decidable (IsCleanSchema path) :=
  decidable_of_iff ((∀ segment ∈ segments path,
      segment ≠ [] ∧ segment ≠ [Text.dot] ∧ segment ≠ up) ∧ Text.ofString ".proto" <:+ path)
    ⟨fun ⟨segments, extension⟩ => ⟨segments, extension⟩,
      fun clean => ⟨clean.segments, clean.extension⟩⟩

theorem stem_append {path : Text} (extension : Text.ofString ".proto" <:+ path) :
    stem path ++ Text.ofString ".proto" = path := by
  obtain ⟨front, rfl⟩ := extension
  have found : (Text.ofString ".proto").isSuffixOf? (front ++ Text.ofString ".proto") =
      some front :=
    List.isSuffixOf?_eq_some_iff_append_eq.mpr rfl
  rw [stem, Text.trimEnd, found, Option.getD_some]

private theorem stem_of_not_suffix {path : Text} (bare : ¬Text.ofString ".proto" <:+ path) :
    stem path = path := by
  have absent : (Text.ofString ".proto").isSuffixOf? path = none := by
    rw [Option.eq_none_iff_forall_ne_some]
    intro front found
    exact bare ⟨front, List.isSuffixOf?_eq_some_iff_append_eq.mp found⟩
  rw [stem, Text.trimEnd, absent, Option.getD_none]

theorem segments_module (path : Text) : ∃ directories last name,
    segments path = directories ++ [name] ∧
    ∀ ending : Text, Text.slash ∉ ending →
      segments (messageModule path ++ ending) = directories ++ [last ++ ("_pb" ++ ending)] := by
  obtain ⟨directories, last, split⟩ := segments_append (stem path)
  have own : ∃ name, segments path = directories ++ [name] := by
    by_cases extension : Text.ofString ".proto" <:+ path
    · have extended := split ".proto" (by decide)
      rw [stem_append extension] at extended
      exact ⟨_, extended⟩
    · have bare := split [] List.not_mem_nil
      rw [stem_of_not_suffix extension, List.append_nil] at bare
      exact ⟨_, bare⟩
  obtain ⟨name, own⟩ := own
  refine ⟨directories, last, name, own, fun ending plain => ?_⟩
  rw [messageModule, List.append_assoc]
  refine split _ fun member => ?_
  rcases List.mem_append.mp member with inSuffix | inEnding
  · exact absurd inSuffix (by decide)
  · exact plain inEnding

theorem IsClean.messageModule {path : Text} (clean : IsClean path) :
    IsClean (messageModule path) := by
  obtain ⟨directories, last, name, own, modules⟩ := segments_module path
  have parts := modules [] List.not_mem_nil
  rw [List.append_nil, List.append_nil] at parts
  intro segment member
  rw [parts] at member
  rcases List.mem_append.mp member with before | atLast
  · exact clean segment (own ▸ List.mem_append_left _ before)
  · obtain rfl := List.mem_singleton.mp atLast
    have long : 3 ≤ (last ++ Text.ofString "_pb").length := by
      rw [List.length_append]
      exact Nat.le_add_left 3 last.length
    refine ⟨?_, ?_, ?_⟩ <;>
    · intro short
      rw [short] at long
      exact absurd long (by decide)

private theorem IsCleanSchema.up_notMem {path : Text} (clean : IsCleanSchema path) :
    up ∉ Path.segments (messageModule path) := by
  intro climbs
  exact (IsClean.messageModule clean.segments up climbs).2.2 rfl

theorem importPath_eq (source target : Text) (style : ImportStyle) :
    importPath source target style =
      if isWellKnown target then "google-protobuf/" ++ messageModule target
      else route style (directory source) (messageModule target) := by
  cases style <;> rfl

theorem prefix_route (style : ImportStyle) (origin target : Text) :
    Text.ofString "./" <+: route style origin target ∨
      Text.ofString "../" <+: route style origin target := by
  obtain ⟨steps, rest, -, nonempty, -, way⟩ := segments_route style origin target
  have written : route style origin target = ofSegments (ascent steps ++ rest) := by
    rw [← way, ofSegments_segments]
  rw [written]
  cases steps with
  | zero =>
    left
    have first : ofSegments (ascent 0 ++ rest) = [Text.dot] ++ Text.slash :: ofSegments rest :=
      ofSegments_cons _ nonempty
    exact ⟨ofSegments rest, first.symm⟩
  | succ steps =>
    right
    have first : ofSegments (ascent (steps + 1) ++ rest) =
        up ++ Text.slash :: ofSegments (List.replicate steps up ++ rest) :=
      ofSegments_cons _ (List.append_ne_nil_of_right_ne_nil _ nonempty)
    exact ⟨_, first.symm⟩

private theorem head?_route (style : ImportStyle) (origin target : Text) :
    (route style origin target).head? = some Text.dot := by
  rcases prefix_route style origin target with ⟨rest, here⟩ | ⟨rest, above⟩
  · rw [← here]
    rfl
  · rw [← above]
    rfl

theorem importPath_inj {source target target' : Text} {style : ImportStyle}
    (clean : IsCleanSchema target) (clean' : IsCleanSchema target')
    (same : importPath source target style = importPath source target' style) :
    isWellKnown target = isWellKnown target' ∧ messageModule target = messageModule target' := by
  have apart (module module' : Text) :
      "google-protobuf/" ++ module ≠ route style (directory source) module' := by
    intro equal
    have heads := congrArg List.head? equal
    rw [head?_route] at heads
    cases heads
  rw [importPath_eq, importPath_eq] at same
  cases known : isWellKnown target <;> cases known' : isWellKnown target' <;>
    simp only [known, known', if_true, if_false, Bool.false_eq_true] at same
  · exact ⟨rfl, route_inj clean.up_notMem clean'.up_notMem same⟩
  · exact absurd same.symm (apart _ _)
  · exact absurd same (apart _ _)
  · exact ⟨rfl, List.append_cancel_left same⟩

theorem suffix_importPath (source target : Text) (style : ImportStyle) :
    Text.ofString "_pb" <:+ importPath source target style := by
  rw [importPath_eq]
  split
  · have module : Text.ofString "_pb" <:+ messageModule target := List.suffix_append _ _
    exact module.trans (List.suffix_append _ _)
  · obtain ⟨steps, rest, -, nonempty, parts, way⟩ :=
      segments_route style (directory source) (messageModule target)
    obtain ⟨front, last, rfl⟩ := (List.eq_nil_or_concat' rest).resolve_left nonempty
    obtain ⟨enclosing, name, split⟩ := segments_append (stem target)
    have whole := parts.symm.trans (split "_pb" (by decide))
    rw [← List.append_assoc] at whole
    obtain rfl : last = name ++ Text.ofString "_pb" :=
      List.singleton_inj.mp (List.append_inj' whole rfl).2
    rw [← ofSegments_segments (route style _ _), way, ← List.append_assoc]
    exact (List.suffix_append _ _).trans (suffix_ofSegments _ _)

end ProtoTypings.Path
