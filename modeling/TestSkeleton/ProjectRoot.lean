import TestSkeleton.Workspace.Resolve

/-! The root of a project: the closest folder around a path that holds a marker. -/

namespace TestSkeleton

/-- The names of which one at least stands in the root of a project. -/
def projectMarkers : List Text := ["Cargo.toml", "v.mod", "src"].map String.toList

/-- Whether a name is there for one of several. -/
def holdsAny (w : Workspace) (folder : Path) : List Text → Except FileError Bool
  | [] => .ok false
  | name :: rest => do
    if ← w.isPresent (folder.child name) then return true
    holdsAny w folder rest

/-- The first of several folders that holds a marker. -/
def firstMarked? (w : Workspace) : List Path → Except FileError (Option Path)
  | [] => .ok none
  | folder :: rest => do
    if ← holdsAny w folder projectMarkers then return some folder
    firstMarked? w rest

/-- The root of the project that a path lies in. -/
def findProjectRoot (w : Workspace) (start : Path) : Except Failure Path := do
  match ← w.resolveExisting? (← w.expandHome start) with
  | none => throw (.root (.notFound start.text))
  | some p =>
    let folder := if ← (w.isFile p).mapError .file then p.parent else p
    match ← (firstMarked? w folder.selfAndParents).mapError .file with
    | some root => return root
    | none => throw (.root (.noRootAbove start.text))

end TestSkeleton
