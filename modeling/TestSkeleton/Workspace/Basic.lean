import TestSkeleton.Workspace.Error
import TestSkeleton.Workspace.FileTree
import TestSkeleton.Workspace.Path
import TestSkeleton.Text.Lines

/-! Finding and reading files.

A workspace is a file tree seen from a current folder, with the variables of the environment. A
path leads to a place by its names, links on the way followed. -/

namespace TestSkeleton

structure Workspace where
  files : FileTree := {}
  current : Place := []
  environment : Table Text Text := []
  deriving DecidableEq, Repr

/-- Where a path ends: a place in a folder that exists, and the entry there. -/
structure Spot where
  place : Place
  entry : Option Entry
  deriving DecidableEq, Repr

/-- How far names lead: to their end, or to a link with more names behind it. -/
inductive Descent where
  | ended (spot : Spot)
  | stopped (folder : Place) (target : Text) (rest : List Text)
  deriving DecidableEq, Repr

namespace FileTree

/-- The most bytes that a name, and a whole path, can have. -/
def nameLimit : Nat := 255

def pathLimit : Nat := 4095

/-- The most links that one path can lead through. -/
def linkLimit : Nat := 40

/-- Goes down from a folder by names, up to the first link that is to be followed. -/
def descend (t : FileTree) (followLast : Bool) (folder : Place) :
    List Text → Except FileFault Descent
  | [] => .ok (.ended ⟨folder, t.entryAt? folder⟩)
  | name :: rest =>
    if name = ['.'] then descend t followLast folder rest
    else if name = Path.up then descend t followLast folder.dropLast rest
    else if nameLimit < (Utf8.encode name).length then .error .nameTooLong
    else
      let here := folder ++ [name]
      match t.entryAt? here with
      | none => if rest.isEmpty then .ok (.ended ⟨here, none⟩) else .error .notFound
      | some (.file content) =>
        if rest.isEmpty then .ok (.ended ⟨here, some (.file content)⟩) else .error .notFolder
      | some .folder => descend t followLast here rest
      | some (.link target) =>
        if rest.isEmpty && !followLast then .ok (.ended ⟨here, some (.link target)⟩)
        else .ok (.stopped folder target rest)

/-- The names of a link's target. A slash or a single dot at its end asks for a folder. -/
def targetNames (target : Text) : List Text :=
  let last := (Text.splitOn '/' target).getLast?.getD []
  Path.names target ++ if last = [] ∨ last = ['.'] then [['.']] else []

/-- Goes down from a folder by names, through at most `links` links. -/
def follow (t : FileTree) (followLast : Bool) :
    (links : Nat) → Place → List Text → Except FileFault Spot
  | links, folder, names => do
    match ← t.descend followLast folder names with
    | .ended spot => return spot
    | .stopped folder target rest =>
      match links with
      | 0 => throw .linkLoop
      | links + 1 =>
        let start := if (Path.read target).isAbsolute then [] else folder
        t.follow followLast links start (targetNames target ++ rest)

end FileTree

namespace Workspace

/-- The place that a path is seen from. -/
def base (w : Workspace) (p : Path) : Place := if p.isAbsolute then [] else w.current

def locate (w : Workspace) (p : Path) (followLast : Bool := true) : Except FileFault Spot :=
  if FileTree.pathLimit < (Utf8.encode p.text).length then .error .nameTooLong
  else w.files.follow followLast FileTree.linkLimit (w.base p) p.parts

/-- The entry that a path leads to, which must exist. -/
def entry (w : Workspace) (p : Path) : Except FileFault Entry := do
  match (← w.locate p).entry with
  | some entry => return entry
  | none => throw .notFound

/-- Faults that show that a path leads nowhere. -/
def leadsNowhere : FileFault → Bool
  | .notFound | .notFolder | .linkLoop => true
  | _ => false

/-- The entry that a path leads to, if it leads anywhere. -/
def entryAt? (w : Workspace) (p : Path) : Except FileError (Option Entry) :=
  match w.entry p with
  | .ok entry => .ok (some entry)
  | .error fault => if leadsNowhere fault then .ok none else .error { fault, path := p.text }

def isPresent (w : Workspace) (p : Path) : Except FileError Bool :=
  return (← w.entryAt? p).isSome

def isFile (w : Workspace) (p : Path) : Except FileError Bool := do
  match ← w.entryAt? p with
  | some (.file _) => return true
  | _ => return false

def isFolder (w : Workspace) (p : Path) : Except FileError Bool := do
  match ← w.entryAt? p with
  | some .folder => return true
  | _ => return false

def readBytes (w : Workspace) (p : Path) : Except FileError Bytes :=
  match w.entry p with
  | .ok (.file content) => .ok content
  | .ok _ => .error { fault := .isFolder, path := p.text }
  | .error fault => .error { fault, path := p.text }

/-- The text of a file, with uniform line ends. -/
def readText (w : Workspace) (p : Path) : Except ReadError Text := do
  let content ← (w.readBytes p).mapError .file
  let text ← (Utf8.decode content).mapError .utf8
  return Text.unifyLineEnds text

def givenVariable? (w : Workspace) (name : Text) : Option Text := w.environment.get? name

/-- A variable that is set and not empty. -/
def filledVariable? (w : Workspace) (name : Text) : Option Text :=
  (w.givenVariable? name).filter (· ≠ [])

end Workspace

end TestSkeleton
