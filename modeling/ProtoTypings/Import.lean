import ProtoTypings.Symbol

set_option autoImplicit false
set_option relaxedAutoImplicit false

/-!
The imports of one file of declarations. They are collected reference by reference: the first
reference to a module imports it, under its preferred name or, if that is taken, under the preferred
name with the least free number.
-/

namespace ProtoTypings

structure Import where
  name : Text
  path : Text
  deriving DecidableEq, Repr

structure Imports where
  /-- Whether the file's own symbols are in scope without an import. -/
  ownInScope : Bool
  /-- The names that no further import may take. -/
  used : List Text
  /-- The imports in order of first reference. -/
  entries : List Import := []
  deriving DecidableEq, Repr

namespace Imports

def find? (imports : Imports) (path : Text) : Option Import :=
  imports.entries.find? fun entry => decide (entry.path = path)

def push (imports : Imports) (name path : Text) : Imports :=
  { imports with
    used := name :: imports.used
    entries := imports.entries ++ [⟨name, path⟩] }

/-- Imports a module under a fixed name, unless it is imported already. -/
def fixed (imports : Imports) (name path : Text) : Imports :=
  match imports.find? path with
  | some _ => imports
  | none => imports.push name path

def numbered (name : Text) (n : Nat) : Text := name ++ Text.underscore :: Text.ofNat n

/-- The least number from 1 on that makes a name free. As the name itself is used, not all of the
numbered ones up to the number of used names can be, so the search ends among them. -/
def freeNumber (used : List Text) (name : Text) : Nat :=
  ((List.range' 1 used.length).find? fun n => !used.contains (numbered name n)).getD
    (used.length + 1)

/-- A free name for an import: the preferred one, or the first numbered one. -/
def freeName (imports : Imports) (preferred : Text) : Text :=
  if imports.used.contains preferred then
    numbered preferred (freeNumber imports.used preferred)
  else preferred

/-- Whether a reference needs no import. -/
def inScope (imports : Imports) (target : Resolution) : Bool :=
  target.isLocal && imports.ownInScope

def add (imports : Imports) (target : Resolution) : Imports :=
  if imports.inScope target then imports
  else match imports.find? target.importPath with
    | some _ => imports
    | none => imports.push (imports.freeName target.importName) target.importPath

def addAll (imports : Imports) (targets : List Resolution) : Imports := targets.foldl add imports

/-- How a reference is spelled with these imports: by its bare name if it is in scope, else by the
name of the import that provides it. -/
def spell (imports : Imports) (target : Resolution) : Text :=
  if imports.inScope target then target.name
  else match imports.find? target.importPath with
    | some entry => entry.name ++ Text.dot :: target.name
    | none => target.importName ++ Text.dot :: target.name

def reference (imports : Imports) (target : Resolution) : Text × Imports :=
  ((imports.add target).spell target, imports.add target)

end Imports

end ProtoTypings
