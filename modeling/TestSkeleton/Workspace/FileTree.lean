import TestSkeleton.Table
import TestSkeleton.Text.Utf8

/-! Trees of files, folders and links.

A tree is a table from places to entries. The topmost folder is always there; every other folder
has an entry of its own. -/

namespace TestSkeleton

inductive Entry where
  | file (content : Bytes)
  | link (target : Text)
  | folder
  deriving DecidableEq, Repr

/-- Where an entry is: the names from the topmost folder down. -/
abbrev Place := List Text

structure FileTree where
  entries : Table Place Entry := []
  deriving DecidableEq, Repr

namespace FileTree

def entryAt? (t : FileTree) (place : Place) : Option Entry :=
  if place = [] then some .folder else t.entries.get? place

def put (t : FileTree) (place : Place) (entry : Entry) : FileTree :=
  ⟨t.entries.put place entry⟩

def erase (t : FileTree) (place : Place) : FileTree :=
  ⟨t.entries.filter fun (key, _) => key ≠ place⟩

/-- Takes away an entry with all that lies inside. -/
def prune (t : FileTree) (place : Place) : FileTree :=
  ⟨t.entries.filter fun (key, _) => !place.isPrefixOf key⟩

/-- Puts an entry, and a folder wherever one is missing above it. -/
def plant (t : FileTree) (place : Place) (entry : Entry) : FileTree :=
  let missing := ((List.range place.length).drop 1).map place.take
  let grown := missing.foldl (fun t p => if (t.entryAt? p).isNone then t.put p .folder else t) t
  grown.put place entry

/-- Code point order. -/
def nameLe (a b : Text) : Bool := !decide (b < a)

/-- The names in a folder, in order. -/
def namesIn (t : FileTree) (folder : Place) : List Text :=
  (t.entries.keys.filterMap fun place =>
    match place.getLast? with
    | some name => if place.dropLast = folder then some name else none
    | none => none).mergeSort nameLe

/-- The entries below a folder, with their places seen from there. -/
def below (t : FileTree) (folder : Place) : List (Place × Entry) :=
  t.entries.filterMap fun (place, entry) =>
    if folder.isPrefixOf place ∧ place ≠ folder then some (place.drop folder.length, entry)
    else none

end FileTree

end TestSkeleton
