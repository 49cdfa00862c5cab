import Mathlib.Data.List.Perm.Subperm
import Mathlib.Order.Bounds.Defs
import ProtoTypings.Import
import ProtoTypings.Proofs.SymbolTable

set_option autoImplicit false
set_option relaxedAutoImplicit false

/-!
The collector of imports. Every module is imported once, every name is given once, and neither
changes when further references follow, so that a reference can be spelled at any later time.
-/

namespace ProtoTypings

private theorem Text.toNat_toUInt8_of_isDigit {c : Char} (digit : c.isDigit) :
    c.toUInt8.toNat = c.toNat := by
  have high : c.toNat ≤ 57 := (Char.isDigit_iff_toNat.mp digit).2
  simp only [Char.toUInt8, UInt32.toNat_toUInt8]
  exact Nat.mod_eq_of_lt (by change c.toNat < 256; omega)

theorem Text.isDigit_of_mem_ofNat {n : Nat} {byte : UInt8} (member : byte ∈ Text.ofNat n) :
    Ascii.isDigit byte = true := by
  obtain ⟨c, digit, rfl⟩ := List.mem_map.mp member
  have isDigit : c.isDigit := Nat.isDigit_of_mem_toDigits (by decide) (by decide) digit
  obtain ⟨low, high⟩ := Char.isDigit_iff_toNat.mp isDigit
  simp only [Ascii.isDigit, Bool.and_eq_true, decide_eq_true_eq, UInt8.le_iff_toNat_le,
    toNat_toUInt8_of_isDigit isDigit]
  exact ⟨low, high⟩

theorem Text.ofNat_ne_nil (n : Nat) : Text.ofNat n ≠ [] := by
  intro empty
  exact Nat.toDigits_ne_nil (List.map_eq_nil_iff.mp empty)

theorem Text.ofNat_injective : Function.Injective Text.ofNat := by
  let read (s : Text) : Nat := Nat.ofDigitChars 10 (s.map fun b => Char.ofNat b.toNat) 0
  have read_ofNat : Function.LeftInverse read Text.ofNat := by
    intro n
    have digits : (Text.ofNat n).map (fun b => Char.ofNat b.toNat) = Nat.toDigits 10 n := by
      rw [Text.ofNat, List.map_map]
      refine (List.map_congr_left fun c member => ?_).trans (List.map_id _)
      have digit := Nat.isDigit_of_mem_toDigits (by decide) (by decide) member
      change Char.ofNat c.toUInt8.toNat = c
      rw [toNat_toUInt8_of_isDigit digit, Char.ofNat_toNat]
    rw [show read (Text.ofNat n) = Nat.ofDigitChars 10 _ 0 from rfl, digits,
      Nat.ofDigitChars_ten_toDigits]
  exact read_ofNat.injective

namespace Imports

theorem numbered_injective (name : Text) : Function.Injective (numbered name) := by
  intro m n same
  have suffix := List.append_cancel_left same
  exact Text.ofNat_injective (List.cons.inj suffix).2

private theorem numbered_ne_self (name : Text) (n : Nat) : numbered name n ≠ name := by
  intro same
  have lengths := congrArg List.length same
  simp [numbered] at lengths

/-- A name and its numbered ones all differ, so a list that has them is longer than they are many. -/
theorem lt_length_of_numbered_mem {names : List Text} {name : Text} {count : Nat}
    (self : name ∈ names) (all : ∀ n ∈ List.range' 1 count, numbered name n ∈ names) :
    count < names.length := by
  have distinct : (name :: (List.range' 1 count).map (numbered name)).Nodup := by
    refine List.nodup_cons.mpr ⟨?_, List.Nodup.map (numbered_injective name) (List.nodup_range' 1)⟩
    intro again
    obtain ⟨n, -, same⟩ := List.mem_map.mp again
    exact numbered_ne_self name n same
  have contained : name :: (List.range' 1 count).map (numbered name) ⊆ names := by
    intro candidate member
    rcases List.mem_cons.mp member with rfl | member
    · exact self
    · obtain ⟨n, range, rfl⟩ := List.mem_map.mp member
      exact all n range
  have lengths := (List.subperm_of_subset distinct contained).length_le
  simpa only [List.length_cons, List.length_map, List.length_range', Nat.succ_le_iff] using lengths

theorem exists_free_number {used : List Text} {name : Text} (taken : name ∈ used) :
    ∃ n ∈ List.range' 1 used.length, numbered name n ∉ used := by
  by_contra all_taken
  refine Nat.lt_irrefl used.length (lt_length_of_numbered_mem taken fun n range => ?_)
  by_contra free
  exact all_taken ⟨n, range, free⟩

theorem isLeast_freeNumber {used : List Text} {name : Text} (taken : name ∈ used) :
    IsLeast {n | 1 ≤ n ∧ numbered name n ∉ used} (freeNumber used name) := by
  obtain ⟨n, range, free⟩ := exists_free_number taken
  cases found : (List.range' 1 used.length).find? fun n => !used.contains (numbered name n) with
  | none =>
    have refused := List.find?_eq_none.mp found n range
    simp [free] at refused
  | some least =>
    rw [freeNumber, found]
    obtain ⟨leastFree, leastRange, earlier⟩ := List.find?_range'_eq_some.mp found
    refine ⟨⟨(List.mem_range'_1.mp leastRange).1, by simpa using leastFree⟩, ?_⟩
    rintro m ⟨positive, mFree⟩
    by_contra less
    have mTaken : numbered name m ∈ used := by simpa using earlier m positive (Nat.lt_of_not_le less)
    exact mFree mTaken

theorem freeName_not_mem_used (imports : Imports) (preferred : Text) :
    imports.freeName preferred ∉ imports.used := by
  unfold freeName
  split
  · rename_i contained
    exact (isLeast_freeNumber (by simpa using contained)).1.2
  · rename_i fresh
    simpa using fresh

/-- Every import has a name and a path of its own, and no further import may take its name. -/
structure WellFormed (imports : Imports) : Prop where
  names : (imports.entries.map Import.name).Nodup
  paths : (imports.entries.map Import.path).Nodup
  used : ∀ entry ∈ imports.entries, entry.name ∈ imports.used

private theorem WellFormed.push {imports : Imports} (wellFormed : imports.WellFormed)
    {name path : Text} (newName : name ∉ imports.entries.map Import.name)
    (newPath : path ∉ imports.entries.map Import.path) : (imports.push name path).WellFormed := by
  refine ⟨Keyed.nodup_map_concat wellFormed.names newName,
    Keyed.nodup_map_concat wellFormed.paths newPath, ?_⟩
  intro entry member
  rcases List.mem_append.mp member with earlier | single
  · exact List.mem_cons_of_mem name (wellFormed.used entry earlier)
  · obtain rfl := List.mem_singleton.mp single
    exact List.mem_cons_self

theorem wellFormed_fixed (ownInScope : Bool) (taken : List Text) (name path : Text) :
    (fixed ⟨ownInScope, taken, []⟩ name path).WellFormed := by
  have empty : WellFormed ⟨ownInScope, taken, []⟩ := ⟨by simp, by simp, by simp⟩
  exact empty.push (by simp) (by simp)

theorem add_cases (imports : Imports) (target : Resolution) :
    (imports.add target = imports ∧
      (imports.inScope target = true ∨ ∃ entry, imports.find? target.importPath = some entry)) ∨
    (imports.find? target.importPath = none ∧
      imports.add target =
        imports.push (imports.freeName target.importName) target.importPath) := by
  unfold add
  cases scope : imports.inScope target with
  | true => simp
  | false =>
    cases found : imports.find? target.importPath with
    | none => simp
    | some entry => simp

theorem WellFormed.add {imports : Imports} (wellFormed : imports.WellFormed) (target : Resolution) :
    (imports.add target).WellFormed := by
  rcases add_cases imports target with ⟨same, -⟩ | ⟨absent, pushed⟩
  · rw [same]
    exact wellFormed
  · rw [pushed]
    refine wellFormed.push ?_ (Keyed.find?_eq_none_iff.mp absent)
    intro member
    obtain ⟨entry, entryMember, named⟩ := List.mem_map.mp member
    exact freeName_not_mem_used imports _ (named ▸ wellFormed.used entry entryMember)

theorem WellFormed.addAll {imports : Imports} (wellFormed : imports.WellFormed)
    (targets : List Resolution) : (imports.addAll targets).WellFormed := by
  induction targets generalizing imports with
  | nil => exact wellFormed
  | cons target rest ih => exact ih (wellFormed.add target)

def Provides (imports : Imports) (target : Resolution) : Prop :=
  imports.inScope target = true ∨ ∃ entry, imports.find? target.importPath = some entry

@[simp] theorem inScope_add (imports : Imports) (target other : Resolution) :
    (imports.add target).inScope other = imports.inScope other := by
  rcases add_cases imports target with ⟨same, -⟩ | ⟨-, pushed⟩
  · rw [same]
  · rw [pushed]
    rfl

theorem find?_add {imports : Imports} {path : Text} {entry : Import}
    (found : imports.find? path = some entry) (target : Resolution) :
    (imports.add target).find? path = some entry := by
  rcases add_cases imports target with ⟨same, -⟩ | ⟨-, pushed⟩
  · rw [same]
    exact found
  · rw [pushed]
    exact List.find?_append.trans (by rw [show imports.entries.find? _ = _ from found]; rfl)

theorem provides_add (imports : Imports) (target : Resolution) :
    (imports.add target).Provides target := by
  rcases add_cases imports target with ⟨same, provided⟩ | ⟨absent, pushed⟩
  · rw [same]
    exact provided
  · refine Or.inr ⟨⟨imports.freeName target.importName, target.importPath⟩, ?_⟩
    rw [pushed]
    exact List.find?_append.trans (by
      rw [show imports.entries.find? _ = _ from absent]
      simp)

private theorem Provides.add {imports : Imports} {target : Resolution}
    (provided : imports.Provides target)
    (other : Resolution) : (imports.add other).Provides target := by
  rcases provided with scope | ⟨entry, found⟩
  · exact Or.inl (by rw [inScope_add]; exact scope)
  · exact Or.inr ⟨entry, find?_add found other⟩

private theorem Provides.addAll {imports : Imports} {target : Resolution}
    (provided : imports.Provides target) (others : List Resolution) :
    (imports.addAll others).Provides target := by
  induction others generalizing imports with
  | nil => exact provided
  | cons other rest ih => exact ih (provided.add other)

theorem provides_addAll (imports : Imports) {targets : List Resolution} {target : Resolution}
    (recorded : target ∈ targets) : (imports.addAll targets).Provides target := by
  induction targets generalizing imports with
  | nil => simp at recorded
  | cons first rest ih =>
    rcases List.mem_cons.mp recorded with rfl | later
    · exact (provides_add imports target).addAll rest
    · exact ih (imports.add first) later

@[simp] theorem inScope_addAll (imports : Imports) (targets : List Resolution)
    (other : Resolution) : (imports.addAll targets).inScope other = imports.inScope other := by
  induction targets generalizing imports with
  | nil => rfl
  | cons target rest ih => exact (ih (imports.add target)).trans (inScope_add imports target other)

end Imports

/-- An import that shares neither its name nor its path with another one in a list. -/
def Import.OnlyOneIn (entry : Import) (imports : List Import) : Prop :=
  imports.filter (fun other => other.name = entry.name) = [entry] ∧
    imports.filter (fun other => other.path = entry.path) = [entry]

namespace Imports

private theorem WellFormed.onlyOne {imports : Imports} (wellFormed : imports.WellFormed)
    {entry : Import} (member : entry ∈ imports.entries) : entry.OnlyOneIn imports.entries :=
  ⟨Keyed.filter_eq_singleton wellFormed.names member,
    Keyed.filter_eq_singleton wellFormed.paths member⟩

/-- A reference that is provided is spelled by its bare name if it is in scope, and else by the name
of the only import with its path. -/
theorem WellFormed.spell_cases {imports : Imports} (wellFormed : imports.WellFormed)
    {target : Resolution} (provided : imports.Provides target) :
    (imports.inScope target = true ∧ imports.spell target = target.name) ∨
    (imports.inScope target = false ∧ ∃ name : Text,
      Import.OnlyOneIn ⟨name, target.importPath⟩ imports.entries ∧
        imports.spell target = name ++ Text.dot :: target.name) := by
  cases scope : imports.inScope target with
  | true => exact Or.inl ⟨rfl, by simp [spell, scope]⟩
  | false =>
    obtain ⟨⟨name, path⟩, found⟩ := provided.resolve_left (by simp [scope])
    obtain ⟨member, rfl⟩ := (Keyed.find?_eq_some_iff wellFormed.paths).mp found
    refine Or.inr ⟨rfl, name, wellFormed.onlyOne member, ?_⟩
    simp only [spell, scope, found, Bool.false_eq_true, if_false]

end Imports

end ProtoTypings
