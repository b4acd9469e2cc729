import TestSkeleton.Document.Toml
import TestSkeleton.Policy
import TestSkeleton.Text.Class
import TestSkeleton.Workspace.Resolve

/-! The name of the crate that tests import. -/

namespace TestSkeleton

open Text

/-- A manifest that names no crate because it cannot be read, and why. -/
structure UnreadManifest where
  path : Path
  cause : Text
  deriving DecidableEq, Repr

structure Crate where
  name : Text
  unread : Option UnreadManifest := none
  deriving DecidableEq, Repr

namespace Crate

/-- A name with an underscore for every character outside words. A blank name is replaced. -/
def identifier (name : Text) : Text :=
  match trim name with
  | [] => "crate_under_test".toList
  | name => name.map fun c => if isWord c then c else '_'

/-- The name in a section of a manifest. -/
def nameIn? (manifest : Entries) (group : String) : Option Text :=
  match (manifest.get? group.toList).bind fun v => Entries.get? v.entries "name".toList with
  | some (.scalar (.text name)) => some name
  | _ => none

/-- The name that a manifest gives, of the library before that of the package; the manifest need
not be there. -/
def ofManifest (w : Workspace) (p : Path) :
    Except FileError (Except UnreadManifest (Option Text)) := do
  if !(← w.isFile p) then return .ok none
  match w.readText p with
  | .error cause => return .error ⟨p, cause.message⟩
  | .ok text => match Toml.read text with
    | none => return .error ⟨p, "not well formed".toList⟩
    | some manifest => return .ok ((nameIn? manifest "lib").or (nameIn? manifest "package"))

/-- The crate of a project: by the policy, else by the manifest, else by the name of its folder. -/
def detect (w : Workspace) (root : Path) (policy : Policy) : Except Failure Crate := do
  match policy.crateName.filter (· ≠ []) with
  | some name => return ⟨identifier name, none⟩
  | none =>
    let found ← (ofManifest w (root.child "Cargo.toml".toList)).mapError .file
    match found with
    | .ok (some name) => return ⟨identifier name, none⟩
    | .ok none => return ⟨identifier (← w.resolve root).name, none⟩
    | .error unread => return ⟨identifier (← w.resolve root).name, some unread⟩

end Crate

end TestSkeleton
