import Mathlib.Logic.Relator
import ProtoTypings.Proofs.ImportPath
import ProtoTypings.Proofs.Imports
import ProtoTypings.Proofs.Retarget

set_option autoImplicit false
set_option relaxedAutoImplicit false

/-!
Two collections of imports whose paths correspond one to one. References to corresponding paths keep
them so, and are spelled alike: the names of imports depend on which paths are equal, not on how
they are written.
-/

namespace ProtoTypings

/-- References that differ in their import paths only, and there as a relation says. -/
structure Resolution.Twins (R : Text → Text → Prop) (target target' : Resolution) : Prop where
  name : target.name = target'.name
  isLocal : target.isLocal = target'.isLocal
  importName : target.importName = target'.importName
  importPath : R target.importPath target'.importPath

namespace Imports

variable {R : Text → Text → Prop} {imports imports' : Imports}

/-- Imports with the same names whose paths are in a relation. -/
structure Twins (R : Text → Text → Prop) (imports imports' : Imports) : Prop where
  ownInScope : imports.ownInScope = imports'.ownInScope
  used : imports.used = imports'.used
  entries : List.Forall₂ (fun entry entry' => entry.name = entry'.name ∧ R entry.path entry'.path)
    imports.entries imports'.entries

private theorem Twins.find? (unique : Relator.BiUnique R) (twins : Twins R imports imports')
    {path path' : Text} (paths : R path path') :
    (imports.find? path).map Import.name = (imports'.find? path').map Import.name := by
  rw [Imports.find?, Imports.find?]
  have pairs := twins.entries
  revert pairs
  generalize imports.entries = entries, imports'.entries = entries'
  intro pairs
  induction pairs with
  | nil => rfl
  | @cons entry entry' _ _ first _ ih =>
    have same : entry.path = path ↔ entry'.path = path' := by
      constructor
      · intro here
        exact unique.2 (here ▸ first.2) paths
      · intro here
        exact unique.1 (here ▸ first.2) paths
    rw [List.find?_cons, List.find?_cons]
    by_cases here : entry.path = path
    · simp [here, same.mp here, first.1]
    · simpa [here, mt same.mpr here] using ih

private theorem Twins.find?_cases (unique : Relator.BiUnique R) (twins : Twins R imports imports')
    {path path' : Text} (paths : R path path') :
    (imports.find? path = none ∧ imports'.find? path' = none) ∨
      ∃ entry entry', imports.find? path = some entry ∧ imports'.find? path' = some entry' ∧
        entry.name = entry'.name := by
  have found := twins.find? unique paths
  cases here : imports.find? path <;> cases there : imports'.find? path' <;> simp_all

private theorem Twins.push (twins : Twins R imports imports') (name : Text) {path path' : Text}
    (paths : R path path') : Twins R (imports.push name path) (imports'.push name path') :=
  { ownInScope := twins.ownInScope
    used := congrArg (name :: ·) twins.used
    entries := List.rel_append twins.entries (.cons ⟨rfl, paths⟩ .nil) }

private theorem Twins.add (unique : Relator.BiUnique R) (twins : Twins R imports imports')
    {target target' : Resolution} (targets : target.Twins R target') :
    Twins R (imports.add target) (imports'.add target') := by
  have found := twins.find?_cases unique targets.importPath
  have scope : imports.inScope target = imports'.inScope target' := by
    rw [inScope, inScope, targets.isLocal, twins.ownInScope]
  have free : imports.freeName target.importName = imports'.freeName target'.importName := by
    rw [freeName, freeName, targets.importName, twins.used]
  rw [Imports.add, Imports.add, scope]
  split
  · exact twins
  rcases found with ⟨here, there⟩ | ⟨entry, entry', here, there, -⟩
  · simp only [here, there, free]
    exact twins.push _ targets.importPath
  · simp only [here, there]
    exact twins

theorem Twins.addAll (unique : Relator.BiUnique R) (twins : Twins R imports imports')
    {targets targets' : List Resolution}
    (pairs : List.Forall₂ (Resolution.Twins R) targets targets') :
    Twins R (imports.addAll targets) (imports'.addAll targets') := by
  induction pairs generalizing imports imports' with
  | nil => exact twins
  | cons first _ ih => exact ih (twins.add unique first)

theorem Twins.spell (unique : Relator.BiUnique R) (twins : Twins R imports imports')
    {target target' : Resolution} (targets : target.Twins R target') :
    imports.spell target = imports'.spell target' := by
  have found := twins.find?_cases unique targets.importPath
  have scope : imports.inScope target = imports'.inScope target' := by
    rw [inScope, inScope, targets.isLocal, twins.ownInScope]
  rw [Imports.spell, Imports.spell, scope, targets.name, targets.importName]
  rcases found with ⟨here, there⟩ | ⟨entry, entry', here, there, names⟩
  · simp only [here, there]
  · simp only [here, there, names]

theorem twins_fixed (ownInScope : Bool) (taken : List Text) (name : Text) {path path' : Text}
    (paths : R path path') : Twins R (fixed ⟨ownInScope, taken, []⟩ name path)
      (fixed ⟨ownInScope, taken, []⟩ name path') :=
  Twins.push ⟨rfl, rfl, .nil⟩ name paths

private theorem entries_isPrefix_add (imports : Imports) (target : Resolution) :
    imports.entries <+: (imports.add target).entries := by
  rcases add_cases imports target with ⟨same, -⟩ | ⟨-, pushed⟩
  · simp only [same, List.prefix_refl]
  · rw [pushed]
    exact List.prefix_append _ _

theorem entries_isPrefix_addAll (imports : Imports) (targets : List Resolution) :
    imports.entries <+: (imports.addAll targets).entries := by
  induction targets generalizing imports with
  | nil => exact List.prefix_refl _
  | cons target rest ih => exact (imports.entries_isPrefix_add target).trans (ih _)

end Imports

namespace Path

/-- The two spellings of an import path: those of the runtime modules, or of one generated
module. -/
def Corresponds (runtime runtime' : Text) (R : Text → Text → Prop) (path path' : Text) : Prop :=
  path = runtime ∧ path' = runtime' ∨ R path path'

theorem biUnique_corresponds {runtime runtime' : Text} {R : Text → Text → Prop}
    (unique : Relator.BiUnique R)
    (apart : ∀ path path', R path path' → path ≠ runtime ∧ path' ≠ runtime') :
    Relator.BiUnique (Corresponds runtime runtime' R) := by
  constructor
  · rintro path other path' (⟨rfl, rfl⟩ | related) (⟨rfl, same⟩ | related')
    · rfl
    · exact absurd rfl (apart _ _ related').2
    · exact absurd same (apart _ _ related).2
    · exact unique.1 related related'
  · rintro path path' other (⟨rfl, rfl⟩ | related) (⟨same, rfl⟩ | related')
    · rfl
    · exact absurd rfl (apart _ _ related').1
    · exact absurd same (apart _ _ related).1
    · exact unique.2 related related'

def SameModule (path path' : Text) : Prop := path = path' ∧ Text.ofString "_pb" <:+ path

theorem biUnique_sameModule : Relator.BiUnique SameModule := by
  constructor
  · rintro _ _ _ ⟨rfl, -⟩ ⟨rfl, -⟩
    rfl
  · rintro _ _ _ ⟨rfl, -⟩ ⟨rfl, -⟩
    rfl

def SameTarget (source : Text) (style style' : ImportStyle) (path path' : Text) : Prop :=
  ∃ target, IsCleanSchema target ∧ path = importPath source target style ∧
    path' = importPath source target style'

private theorem importPath_eq_of_eq {source target target' : Text} {style : ImportStyle}
    (clean : IsCleanSchema target) (clean' : IsCleanSchema target')
    (same : importPath source target style = importPath source target' style)
    (style' : ImportStyle) :
    importPath source target style' = importPath source target' style' := by
  obtain ⟨known, module⟩ := importPath_inj clean clean' same
  rw [importPath_eq, importPath_eq, known, module]

theorem biUnique_sameTarget (source : Text) (style style' : ImportStyle) :
    Relator.BiUnique (SameTarget source style style') := by
  constructor
  · rintro _ _ _ ⟨target, clean, rfl, rfl⟩ ⟨target', clean', rfl, same⟩
    exact importPath_eq_of_eq clean clean' same style
  · rintro _ _ _ ⟨target, clean, rfl, rfl⟩ ⟨target', clean', same, rfl⟩
    exact importPath_eq_of_eq clean clean' same style'

end Path

end ProtoTypings
