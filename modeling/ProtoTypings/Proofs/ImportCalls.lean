import Mathlib.Data.List.Dedup
import Mathlib.Logic.Function.Iterate
import ProtoTypings.Proofs.ImportTwins

set_option autoImplicit false
set_option relaxedAutoImplicit false

/-!
The collector of imports under any sequence of calls. A call does nothing or lists one module that
was not listed, so a module keeps its place and its name. Imports under fixed names may come at any
time and take any name; those for references never take a name that is reserved or listed. The
search for a free name tries one numbered name after the other and knows no last one: it ends because
the numbered names all differ and only so many names are used.
-/

namespace ProtoTypings.Imports

inductive Call where
  | fixed (name path : Text)
  | reference (target : Resolution)

def after (imports : Imports) : Call → Imports
  | .fixed name path => imports.fixed name path
  | .reference target => (imports.reference target).2

def afterAll (imports : Imports) (calls : List Call) : Imports := calls.foldl after imports

def empty (ownInScope : Bool) (reserved : List Text) : Imports := ⟨ownInScope, reserved, []⟩

/-- A reference for which a module is listed under a name. -/
def Picks (imports : Imports) (target : Resolution) (name : Text) : Prop :=
  (imports.after (.reference target)).entries = imports.entries ++ [⟨name, target.importPath⟩]

/-- The two things a call can do: nothing, or list a module that is not listed yet. -/
private theorem after_cases (imports : Imports) (call : Call) :
    imports.after call = imports ∨
      ∃ name path, imports.find? path = none ∧ imports.after call = imports.push name path := by
  cases call with
  | fixed name path =>
    cases found : imports.find? path with
    | none => exact Or.inr ⟨name, path, found, by simp [after, fixed, found]⟩
    | some entry => exact Or.inl (by simp [after, fixed, found])
  | reference target =>
    rcases add_cases imports target with ⟨same, -⟩ | ⟨absent, pushed⟩
    · exact Or.inl same
    · exact Or.inr ⟨_, _, absent, pushed⟩

/-- What calls keep of a collector: everything that is listed, all names that are used, and whether
the file's own symbols are in scope. -/
structure Extends (imports imports' : Imports) : Prop where
  scope : imports'.ownInScope = imports.ownInScope
  used : imports.used ⊆ imports'.used
  entries : imports.entries <+: imports'.entries

private theorem Extends.trans {imports imports' imports'' : Imports}
    (first : imports.Extends imports')
    (second : imports'.Extends imports'') : imports.Extends imports'' :=
  ⟨second.scope.trans first.scope, List.Subset.trans first.used second.used,
    first.entries.trans second.entries⟩

private theorem extends_after (imports : Imports) (call : Call) :
    imports.Extends (imports.after call) := by
  rcases after_cases imports call with same | ⟨name, path, -, pushed⟩
  · rw [same]
    exact ⟨rfl, List.Subset.refl _, List.prefix_refl _⟩
  · rw [pushed]
    exact ⟨rfl, List.subset_cons_self _ _, List.prefix_append _ _⟩

private theorem extends_afterAll (imports : Imports) (calls : List Call) :
    imports.Extends (imports.afterAll calls) := by
  induction calls generalizing imports with
  | nil => exact ⟨rfl, List.Subset.refl _, List.prefix_refl _⟩
  | cons call rest ih => exact (imports.extends_after call).trans (ih _)

private theorem Extends.find? {imports imports' : Imports} (extended : imports.Extends imports')
    {path : Text} {entry : Import} (found : imports.find? path = some entry) :
    imports'.find? path = some entry := by
  obtain ⟨rest, entries⟩ := extended.entries
  rw [Imports.find?, ← entries, List.find?_append, show imports.entries.find? _ = _ from found]
  rfl

private theorem Extends.inScope {imports imports' : Imports} (extended : imports.Extends imports')
    (target : Resolution) : imports'.inScope target = imports.inScope target := by
  rw [Imports.inScope, Imports.inScope, extended.scope]

/-- What holds of a collector whatever has been called: no module is listed twice, and the names
that are reserved or listed are used. -/
structure Sound (reserved : List Text) (imports : Imports) : Prop where
  paths : (imports.entries.map Import.path).Nodup
  reserved : reserved ⊆ imports.used
  listed : imports.entries.map Import.name ⊆ imports.used

private theorem sound_empty (ownInScope : Bool) (reserved : List Text) :
    Sound reserved (empty ownInScope reserved) :=
  ⟨List.nodup_nil, List.Subset.refl reserved, List.nil_subset _⟩

private theorem Sound.after {reserved : List Text} {imports : Imports}
    (sound : Sound reserved imports) (call : Call) : Sound reserved (imports.after call) := by
  rcases after_cases imports call with same | ⟨name, path, absent, pushed⟩
  · rw [same]
    exact sound
  · rw [pushed]
    have new : path ∉ imports.entries.map Import.path := Keyed.find?_eq_none_iff.mp absent
    refine ⟨Keyed.nodup_map_concat sound.paths new,
      List.subset_cons_of_subset name sound.reserved, ?_⟩
    change (imports.entries ++ [(⟨name, path⟩ : Import)]).map Import.name ⊆ name :: imports.used
    rw [List.map_append, List.append_subset]
    exact ⟨List.subset_cons_of_subset name sound.listed, by simp⟩

private theorem Sound.afterAll {reserved : List Text} {imports : Imports}
    (sound : Sound reserved imports)
    (calls : List Call) : Sound reserved (imports.afterAll calls) := by
  induction calls generalizing imports with
  | nil => exact sound
  | cons call rest ih => exact ih (sound.after call)

private theorem reference_of_inScope {imports : Imports} {target : Resolution}
    (inside : imports.inScope target = true) : imports.reference target = (target.name, imports) := by
  have same : imports.add target = imports := by rw [add, if_pos inside]
  rw [reference, same, spell, if_pos inside]

private theorem reference_of_find? {imports : Imports} {target : Resolution} {entry : Import}
    (outside : imports.inScope target = false)
    (found : imports.find? target.importPath = some entry) :
    imports.reference target = (entry.name ++ Text.dot :: target.name, imports) := by
  have same : imports.add target = imports := by simp [add, outside, found]
  rw [reference, same]
  simp [spell, outside, found]

private theorem exists_reference {imports : Imports} {target : Resolution}
    (outside : imports.inScope target = false) :
    ∃ name, (imports.reference target).1 = name ++ Text.dot :: target.name ∧
      (imports.reference target).2.find? target.importPath = some ⟨name, target.importPath⟩ := by
  have stillOutside : (imports.add target).inScope target = false := by rw [inScope_add, outside]
  rcases provides_add imports target with inside | ⟨⟨name, path⟩, found⟩
  · simp [stillOutside] at inside
  · obtain rfl : path = target.importPath := by simpa using List.find?_some found
    refine ⟨name, ?_, found⟩
    simp only [reference, spell, stillOutside, found, Bool.false_eq_true, if_false]

private theorem Picks.fresh {imports : Imports} {target : Resolution} {name : Text}
    (picks : imports.Picks target name) :
    name ∉ imports.used ∧ name ∈ (imports.after (.reference target)).used := by
  have grown : (imports.add target).entries = imports.entries ++ [⟨name, target.importPath⟩] := picks
  rcases add_cases imports target with ⟨same, -⟩ | ⟨-, pushed⟩
  · rw [same] at grown
    simp at grown
  · rw [pushed] at grown
    obtain rfl : imports.freeName target.importName = name := by
      simpa [push] using List.append_cancel_left grown
    refine ⟨freeName_not_mem_used imports _, ?_⟩
    change _ ∈ (imports.add target).used
    rw [pushed]
    exact List.mem_cons_self

private theorem names_afterAll_fixed (imports : Imports) (fixed : List Import) :
    ∃ listed, (listed.Sublist fixed) ∧
      (imports.afterAll (fixed.map fun entry => .fixed entry.name entry.path)).entries =
        imports.entries ++ listed := by
  induction fixed generalizing imports with
  | nil => exact ⟨[], .slnil, (List.append_nil _).symm⟩
  | cons entry rest ih =>
    obtain ⟨listed, sub, entries⟩ := ih (imports.fixed entry.name entry.path)
    cases found : imports.find? entry.path with
    | none =>
      refine ⟨entry :: listed, sub.cons_cons entry, ?_⟩
      refine entries.trans ?_
      simp [Imports.fixed, found, push]
    | some known =>
      refine ⟨listed, sub.cons entry, ?_⟩
      refine entries.trans ?_
      simp [Imports.fixed, found]

private theorem afterAll_references (imports : Imports) (targets : List Resolution) :
    imports.afterAll (targets.map .reference) = imports.addAll targets := by
  rw [afterAll, List.foldl_map]
  rfl

private theorem nodup_names_of_fixed_first (ownInScope : Bool) (reserved : List Text)
    {fixed : List Import} (distinct : (fixed.map Import.name).Nodup) (targets : List Resolution) :
    (((empty ownInScope reserved).afterAll
      (fixed.map (fun entry => .fixed entry.name entry.path) ++ targets.map .reference)).entries.map
        Import.name).Nodup := by
  let start := (empty ownInScope reserved).afterAll
    (fixed.map fun entry => .fixed entry.name entry.path)
  have sound : Sound reserved start := (sound_empty ownInScope reserved).afterAll _
  obtain ⟨listed, sub, entries⟩ := names_afterAll_fixed (empty ownInScope reserved) fixed
  have names : (start.entries.map Import.name).Nodup := by
    rw [show start.entries = [] ++ listed from entries, List.nil_append]
    exact distinct.sublist (sub.map Import.name)
  have wellFormed : start.WellFormed :=
    ⟨names, sound.paths, fun entry member => sound.listed (List.mem_map_of_mem member)⟩
  rw [afterAll, List.foldl_append]
  change ((start.afterAll (targets.map .reference)).entries.map Import.name).Nodup
  rw [afterAll_references]
  exact (wellFormed.addAll targets).names

/-- The collector of imports after any calls. No module is listed twice, and a call lists at most
one more. Every reference that is not answered by a bare name in scope is answered with the name that
its module is listed under, and so are all later ones to that module. The name that is picked for a
module is neither reserved nor listed, and is not picked again. If imports under fixed names come
first and their names differ, then so do all names. -/
theorem collector_invariant (ownInScope : Bool) (reserved : List Text) (earlier : List Call) :
    let imports := (empty ownInScope reserved).afterAll earlier
    (imports.entries.map Import.path).Nodup ∧
    (∀ call, ∃ added, (imports.after call).entries = imports.entries ++ added ∧
      added.length ≤ 1) ∧
    (∀ target, target.isLocal = true ∧ ownInScope = true →
      imports.reference target = (target.name, imports)) ∧
    (∀ target, ¬(target.isLocal = true ∧ ownInScope = true) →
      ∃ name, (imports.reference target).1 = name ++ Text.dot :: target.name ∧
        ∀ later, let final := (imports.after (.reference target)).afterAll later
          ⟨name, target.importPath⟩ ∈ final.entries ∧
          ∀ other, other.importPath = target.importPath →
            ¬(other.isLocal = true ∧ ownInScope = true) →
            (final.reference other).1 = name ++ Text.dot :: other.name) ∧
    (∀ target name, imports.Picks target name →
      name ∉ reserved ∧ name ∉ imports.entries.map Import.name ∧
      ∀ later other name',
        ((imports.after (.reference target)).afterAll later).Picks other name' → name' ≠ name) ∧
    ∀ (fixed : List Import) (targets : List Resolution),
      earlier = fixed.map (fun entry => .fixed entry.name entry.path) ++ targets.map .reference →
      (fixed.map Import.name).Nodup → (imports.entries.map Import.name).Nodup := by
  intro imports
  have sound : Sound reserved imports := (sound_empty ownInScope reserved).afterAll earlier
  have scope (target : Resolution) :
      imports.inScope target = true ↔ target.isLocal = true ∧ ownInScope = true := by
    rw [(extends_afterAll (empty ownInScope reserved) earlier).inScope]
    exact Bool.and_eq_true_iff
  refine ⟨sound.paths, fun call => ?_, fun target inside => ?_, fun target outside => ?_, ?_, ?_⟩
  · rcases after_cases imports call with same | ⟨name, path, -, pushed⟩
    · exact ⟨[], by rw [same, List.append_nil], Nat.zero_le 1⟩
    · exact ⟨[⟨name, path⟩], by rw [pushed]; rfl, Nat.le_refl 1⟩
  · exact reference_of_inScope ((scope target).mpr inside)
  · have out : imports.inScope target = false := by simpa using mt (scope target).mp outside
    obtain ⟨name, answer, listed⟩ := exists_reference out
    refine ⟨name, answer, fun later => ?_⟩
    have extended := extends_afterAll (imports.after (.reference target)) later
    have found := extended.find? listed
    refine ⟨List.mem_of_find?_eq_some found, fun other samePath otherOutside => ?_⟩
    have otherOut : imports.inScope other = false := by simpa using mt (scope other).mp otherOutside
    have stillOut := ((imports.extends_after (.reference target)).trans extended).inScope other
    rw [reference_of_find? (stillOut.trans otherOut) (samePath ▸ found)]
  · intro target name picks
    obtain ⟨free, taken⟩ := picks.fresh
    refine ⟨fun member => free (sound.reserved member), fun member => free (sound.listed member), ?_⟩
    rintro later other name' picksAgain rfl
    exact picksAgain.fresh.1 ((extends_afterAll _ later).used taken)
  · rintro fixed targets rfl distinct
    exact nodup_names_of_fixed_first ownInScope reserved distinct targets

/-- A reserved name sends a module to a numbered one, which no later reference gets, not even one
that prefers it. -/
theorem collector_invariant_reserved :
    let imports := (empty true ["a_pb"]).afterAll [.fixed "jspb" "google-protobuf"]
    let target : Resolution := { name := "M", importPath := "./a_pb", importName := "a_pb" }
    let rival : Resolution := { name := "N", importPath := "./a_pb_1", importName := "a_pb_1" }
    imports.Picks target "a_pb_1" ∧
      (imports.after (.reference target)).Picks rival "a_pb_1_1" ∧
      ¬(imports.after (.reference target)).Picks rival "a_pb_1" := by
  intro imports target rival
  have picks : imports.Picks target "a_pb_1" := by
    rw [Picks]
    decide +kernel
  have rivalPicks : (imports.after (.reference target)).Picks rival "a_pb_1_1" := by
    rw [Picks]
    decide +kernel
  obtain ⟨-, -, -, -, fresh, -⟩ :=
    collector_invariant true ["a_pb"] [.fixed "jspb" "google-protobuf"]
  exact ⟨picks, rivalPicks, fun again => (fresh target _ picks).2.2 [] rival _ again rfl⟩

/-- A search for a free name: it is about to try a number, or it has ended with a name. -/
inductive Search where
  | trying (n : Nat)
  | found (name : Text)
  deriving DecidableEq

/-- One turn of a search. Nothing but a free name ends it. -/
def Search.turn (used : List Text) (name : Text) : Search → Search
  | .trying n =>
    if used.contains (numbered name n) then .trying (n + 1) else .found (numbered name n)
  | .found free => .found free

/-- The search for a free name after a number of turns. -/
def Search.after (used : List Text) (name : Text) (turns : Nat) : Search :=
  (turn used name)^[turns] (.trying 1)

section

variable {used : List Text} {name : Text} {n : Nat}

private theorem Search.turn_of_used (taken : numbered name n ∈ used) :
    turn used name (.trying n) = .trying (n + 1) := by
  simp [turn, taken]

private theorem Search.turn_of_free (free : numbered name n ∉ used) :
    turn used name (.trying n) = .found (numbered name n) := by
  simp [turn, free]

private theorem Search.after_eq (least : IsLeast {m | 1 ≤ m ∧ numbered name m ∉ used} n)
    (turns : Nat) : Search.after used name turns =
      if turns < n then .trying (turns + 1) else .found (numbered name n) := by
  obtain ⟨⟨positive, free⟩, lower⟩ := least
  induction turns with
  | zero =>
    rw [if_pos (by omega)]
    rfl
  | succ turns ih =>
    have next : Search.after used name (turns + 1) =
        Search.turn used name (Search.after used name turns) :=
      Function.iterate_succ_apply' _ _ _
    rw [next, ih]
    by_cases last : turns + 1 = n
    · rw [if_pos (by omega), if_neg (by omega), last]
      exact turn_of_free free
    · by_cases ended : n ≤ turns
      · rw [if_neg (by omega), if_neg (by omega)]
        rfl
      · have taken : numbered name (turns + 1) ∈ used := by
          by_contra notTaken
          have reached : n ≤ turns + 1 := lower ⟨Nat.le_add_left 1 turns, notTaken⟩
          omega
        rw [if_pos (by omega), if_pos (by omega)]
        exact turn_of_used taken

private theorem le_of_isLeast (taken : name ∈ used)
    (least : IsLeast {m | 1 ≤ m ∧ numbered name m ∉ used} n) : n ≤ used.dedup.length := by
  obtain ⟨⟨positive, -⟩, lower⟩ := least
  have fewer : n - 1 < used.dedup.length := by
    refine lt_length_of_numbered_mem (List.mem_dedup.mpr taken) fun m range => ?_
    have bounds := List.mem_range'_1.mp range
    by_contra notTaken
    have reached : n ≤ m := lower ⟨bounds.1, fun member => notTaken (List.mem_dedup.mpr member)⟩
    omega
  omega

end

private theorem reference_of_absent {imports : Imports} {target : Resolution}
    (outside : imports.inScope target = false)
    (absent : imports.find? target.importPath = none) :
    imports.reference target =
      (imports.freeName target.importName ++ Text.dot :: target.name,
        imports.push (imports.freeName target.importName) target.importPath) := by
  have pushed : imports.add target =
      imports.push (imports.freeName target.importName) target.importPath := by
    simp [add, outside, absent]
  have stillOutside : (imports.add target).inScope target = false := by rw [inScope_add, outside]
  have found : (imports.add target).find? target.importPath =
      some ⟨imports.freeName target.importName, target.importPath⟩ := by
    rw [pushed]
    refine List.find?_append.trans ?_
    rw [show imports.entries.find? _ = none from absent]
    simp
  rw [reference, ← pushed]
  simp only [spell, stillOutside, found, Bool.false_eq_true, if_false]

/-- The search for a free name ends, in whatever state the collector is and whichever used name is
preferred. It ends with the least number from 1 on that makes the name free, which is at most the
number of used names, and this is the name under which a module is imported. -/
theorem freeName_search_ends (imports : Imports) (target : Resolution)
    (taken : target.importName ∈ imports.used) :
    ∃ n, IsLeast {m | 1 ≤ m ∧ numbered target.importName m ∉ imports.used} n ∧
      n ≤ imports.used.dedup.length ∧
      (∀ turns, Search.after imports.used target.importName turns =
        if turns < n then .trying (turns + 1) else .found (numbered target.importName n)) ∧
      (imports.inScope target = false → imports.find? target.importPath = none →
        imports.reference target =
          (numbered target.importName n ++ Text.dot :: target.name,
            imports.push (numbered target.importName n) target.importPath)) := by
  have least := isLeast_freeNumber taken
  refine ⟨freeNumber imports.used target.importName, least, le_of_isLeast taken least,
    Search.after_eq least, fun outside absent => ?_⟩
  have chosen : imports.freeName target.importName =
      numbered target.importName (freeNumber imports.used target.importName) := by
    rw [freeName, if_pos (by simpa using taken)]
  rw [← chosen]
  exact reference_of_absent outside absent

/-- Three names are used, one of them twice, and the search ends at the third number: the first is
taken by an import, the second in advance. -/
theorem freeName_search_ends_crowd :
    let imports : Imports :=
      { ownInScope := true, used := ["a_pb_2", "a_pb", "a_pb_1", "a_pb"],
        entries := [⟨"a_pb_1", "./a_pb_1"⟩] }
    let target : Resolution := { name := "M", importPath := "./a_pb", importName := "a_pb" }
    imports.used.dedup.length = 3 ∧
      Search.after imports.used "a_pb" 2 = .trying 3 ∧
      Search.after imports.used "a_pb" 3 = .found "a_pb_3" ∧
      imports.reference target = (Text.ofString "a_pb_3.M", imports.push "a_pb_3" "./a_pb") := by
  intro imports target
  have taken : target.importName ∈ imports.used := by decide +kernel
  obtain ⟨n, least, bound, run, picked⟩ := freeName_search_ends imports target taken
  obtain rfl : n = 3 := by
    have size : imports.used.dedup.length = 3 := by decide +kernel
    have first : numbered "a_pb" 1 ∈ imports.used := by decide +kernel
    have second : numbered "a_pb" 2 ∈ imports.used := by decide +kernel
    obtain ⟨positive, free⟩ := least.1
    have notFirst : n ≠ 1 := fun same => free (same ▸ first)
    have notSecond : n ≠ 2 := fun same => free (same ▸ second)
    omega
  exact ⟨by decide +kernel, run 2, run 3, picked rfl (by decide +kernel)⟩

end ProtoTypings.Imports
