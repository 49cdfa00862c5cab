import ProtoTypings.Text.Basic

set_option autoImplicit false
set_option relaxedAutoImplicit false

/-!
Slash-separated paths, read lexically: no file system is consulted. A schema file's path tells which
module and files are generated for it, and how the declarations of another schema file import that
module.
-/

namespace ProtoTypings

namespace Path

def segments (path : Text) : List Text := Text.split Text.slash path

def ofSegments (parts : List Text) : Text := Text.join [Text.slash] parts

/-- One more segment after the cleaned ones, which are kept last first. An empty segment and `.`
change nothing; `..` takes back a name, stays if there is nothing to take back, and vanishes at
the root. -/
def cleanStep (rooted : Bool) (done : List Text) (segment : Text) : List Text :=
  if segment = [] || segment = [Text.dot] then done
  else if segment = [Text.dot, Text.dot] then
    match done with
    | [] => if rooted then [] else [segment]
    | top :: rest => if top = [Text.dot, Text.dot] then segment :: done else rest
  else segment :: done

/-- The shortest path that is lexically the same; `.` if nothing is left. -/
def clean (path : Text) : Text :=
  let rooted := path.head? = some Text.slash
  let done := ((segments path).foldl (cleanStep rooted) []).reverse
  if rooted then Text.slash :: ofSegments done
  else if done = [] then [Text.dot]
  else ofSegments done

/-- The name by which a file is opened: its cleaned path, where the current directory and the one
above it count as the root. -/
def fileName (path : Text) : Text :=
  let cleaned := clean path
  if cleaned = [Text.dot] || cleaned = [Text.dot, Text.dot] then [Text.slash] else cleaned

def directory (path : Text) : Text :=
  clean (path.reverse.dropWhile (· ≠ Text.slash)).reverse

/-- A schema path without its extension. -/
def stem (path : Text) : Text := Text.trimEnd ".proto" path

/-- The module that declares the messages and enums of a schema file. -/
def messageModule (path : Text) : Text := stem path ++ "_pb"

def messageFile (path : Text) : Text := messageModule path ++ ".d.ts"

def serviceFile (path : Text) : Text := stem path ++ "_grpc_pb" ++ ".d.ts"

def isWellKnown (path : Text) : Bool := Text.startsWith "google/protobuf/" path

/-- The preferred import alias of a message module: slashes, dots and hyphens turn into
underscores. -/
def importAlias (path : Text) : Text :=
  let plain (b : UInt8) : UInt8 :=
    if b = Text.slash || b = Text.dot || b = Text.hyphen then Text.underscore else b
  (stem path).map plain ++ "_pb"

end Path

/-- How imports between generated files are spelled: by climbing to the output root and descending
again, or by the shortest way. -/
inductive ImportStyle where
  | fromRoot
  | relative
  deriving DecidableEq, Repr, Inhabited

namespace ImportStyle

def enumeration : Enumeration := ⟨"ImportStyle", ["root", "relative"]⟩

def code : ImportStyle → Int
  | .fromRoot => 0
  | .relative => 1

def ofCode (code : Int) : ImportStyle := if code = 1 then .relative else .fromRoot

def ofText? (s : Text) : Option ImportStyle :=
  if s = [] || s = Text.ofString "root" then some .fromRoot
  else if s = Text.ofString "relative" then some .relative
  else none

end ImportStyle

namespace Path

def climb (steps : Nat) (target : Text) : Text :=
  (List.replicate steps (Text.ofString "../")).flatten ++ target

/-- The length of the longest common run of segments at the front. -/
def sharedLength : List Text → List Text → Nat
  | a :: as, b :: bs => if a = b then sharedLength as bs + 1 else 0
  | _, _ => 0

/-- The shortest way from a cleaned directory to a target: shared directories are left out. -/
def shortestFrom (origin target : Text) : Text :=
  let origins := if origin = [Text.dot] then [] else segments origin
  let targets := segments target
  let shared := sharedLength origins targets.dropLast
  let rest := ofSegments (targets.drop shared)
  if origins.length = shared then "./" ++ rest else climb (origins.length - shared) rest

/-- The way over the output root from a cleaned directory to a target. -/
def rootedFrom (origin target : Text) : Text :=
  if origin = [Text.dot] then "./" ++ target
  else climb (origin.count Text.slash + 1) target

/-- The path by which the declarations of `source` import the message module of `target`. Schema
files that ship with the runtime library are imported from there. -/
def importPath (source target : Text) (style : ImportStyle) : Text :=
  if isWellKnown target then "google-protobuf/" ++ messageModule target
  else match style with
    | .fromRoot => rootedFrom (directory source) (messageModule target)
    | .relative => shortestFrom (directory source) (messageModule target)

end Path

end ProtoTypings
