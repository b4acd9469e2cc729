import TestSkeleton.Report
import TestSkeleton.Workspace.Resolve

/-! Changes to a workspace: making folders, writing files, and saving in one step.

A change that fails leaves what it did before the failure. It fails where the file tree does not
allow it, and where its surroundings refuse a step that the tree allows: no space is left, a right is
missing, a text has no encoding, the program is interrupted. -/

namespace TestSkeleton

/-- A computation that may change a workspace and may fail. -/
abbrev Change (α : Type) := ExceptT FileError (StateM Workspace) α

namespace Change

def faultAt (p : Path) (fault : FileFault) : FileError := { fault, path := p.text }

/-- Where a path leads, for a change to be made there. -/
def locate (p : Path) (followLast : Bool) : Change Spot := do
  match (← get).locate p followLast with
  | .ok spot => return spot
  | .error fault => throw (faultAt p fault)

def putEntry (place : Place) (entry : Entry) : Change Unit :=
  modify fun w => { w with files := w.files.put place entry }

/-- A step that is refused with a failure, or goes on. -/
def refuse (refusal : Option FileError) : Change Unit :=
  match refusal with
  | none => return
  | some e => throw e

/-- The folders that may not be made, with the failures. -/
abbrev FolderRefusal := Path → Option FileError

def FolderRefusal.none : FolderRefusal := fun _ => .none

/-- Makes one folder in a folder that exists. -/
def makeFolder (p : Path) (refusal : FolderRefusal := .none) : Change Unit := do
  match p.parts.getLast? with
  | none => throw (faultAt p .alreadyExists)
  | some last =>
    let spot ← locate p false
    if last = Path.up ∨ spot.entry.isSome then throw (faultAt p .alreadyExists)
    refuse (refusal p)
    putEntry spot.place .folder

/-- Makes one folder, unless a folder is there. -/
def ensureFolder (p : Path) (refusal : FolderRefusal := .none) : Change Unit :=
  tryCatch (makeFolder p refusal) fun e => do
    match e.fault, (← get).isFolder p with
    | .notFound, _ => throw e
    | _, .ok true => return
    | _, _ => throw e

/-- Makes a folder and the folders around it, given its names from the last to the first. -/
def ensureFoldersBack (refusal : FolderRefusal) (root : PathRoot) :
    (back : List Text) → Change Unit
  | [] => ensureFolder ⟨root, []⟩ refusal
  | name :: outer => do
    let p : Path := ⟨root, (name :: outer).reverse⟩
    tryCatch (ensureFolder p refusal) fun e => do
      if e.fault = .notFound then
        ensureFoldersBack refusal root outer
        ensureFolder p refusal
      else throw e

/-- Makes a folder and all folders that are missing around it. -/
def ensureFolders (p : Path) (refusal : FolderRefusal := .none) : Change Unit :=
  ensureFoldersBack refusal p.root p.parts.reverse

/-- Writes to an open file: the content, or as many bytes of it as went before a failure. -/
def writeOpen (place : Place) (content : Bytes) (refusal : Option (Nat × FileError)) :
    Change Unit :=
  match refusal with
  | none => putEntry place (.file content)
  | some (written, e) => do
    putEntry place (.file (content.take written))
    throw e

/-- What the surroundings refuse when a file is written in place. -/
structure Refusals where
  folder : FolderRefusal := .none
  opening : Option FileError := none
  writing : Option (Nat × FileError) := none

/-- Writes a file in place, through a link if the path is one. What was there is gone as soon as the file is
open. -/
def writeFile (p : Path) (content : Bytes) (refusals : Refusals := {}) : Change Unit := do
  let spot ← locate p true
  if spot.entry = some .folder then throw (faultAt p .isFolder)
  refuse refusals.opening
  writeOpen spot.place content refusals.writing

/-- Adds to the end of a file, which is made if there is none. -/
def appendFile (p : Path) (content : Bytes) : Change Unit := do
  let spot ← locate p true
  match spot.entry with
  | some .folder => throw (faultAt p .isFolder)
  | some (.file old) => putEntry spot.place (.file (old ++ content))
  | _ => putEntry spot.place (.file content)

/-- Makes a new file and opens it. -/
def openNew (p : Path) (refusal : Option FileError) : Change Place := do
  let spot ← locate p false
  if spot.entry.isSome then throw (faultAt p .alreadyExists)
  refuse refusal
  putEntry spot.place (.file [])
  return spot.place

/-- Moves a file over whatever file or link a path names. -/
def rename (source target : Path) (refusal : Option FileError) : Change Unit := do
  let fail (fault : FileFault) : Change Unit :=
    throw { fault, path := source.text, target := some target.text }
  let w ← get
  match w.locate source false, w.locate target false with
  | .error fault, _ => fail fault
  | _, .error fault => fail fault
  | .ok origin, .ok goal =>
    match origin.entry with
    | none => fail .notFound
    | some entry =>
      if target.parts.getLast?.all (· = Path.up) then fail .busy
      else if goal.entry = some .folder then fail .isFolder
      else do
        refuse refusal
        set { w with files := (w.files.erase origin.place).put goal.place entry }

def removeFile (p : Path) : Change Unit := do
  let spot ← locate p false
  modify fun w => { w with files := w.files.erase spot.place }

/-- The hidden file beside a target that is written before it takes the target's name. -/
def temporary (tag : Text) (w : Workspace) (target : Path) : Path :=
  (w.absolute target.parent).append
    ⟨.relative, [['.'] ++ target.name ++ ['.'] ++ tag ++ ".tmp".toList]⟩

/-- How a file is saved: the name part of its temporary file, and what the surroundings refuse. -/
structure Attempt where
  tag : Text
  folder : FolderRefusal := .none
  opening : Option FileError := none
  writing : Option (Nat × FileError) := none
  moving : Option FileError := none

/-- Saves a file so that its path never holds a part of the content: a temporary file gets the
content and then takes the path's name. -/
def save (attempt : Attempt) (file : TestFile) : Change Path := do
  let target := Path.read file.path
  ensureFolders target.parent attempt.folder
  let beside := temporary attempt.tag (← get) target
  let place ← openNew beside attempt.opening
  tryCatch
    (do
      writeOpen place (Utf8.encode file.content) attempt.writing
      rename beside target attempt.moving)
    fun e => do
      removeFile beside
      throw e
  return target

/-- Saves files in order, up to the first that fails. -/
def saveEach (jobs : List (TestFile × Attempt)) : Change (List Path) :=
  jobs.mapM fun job => save job.2 job.1

/-- Saves files whose surroundings refuse nothing. -/
def saveAll (tag : Text) (files : List TestFile) : Change (List Path) :=
  saveEach (files.map (·, { tag }))

end Change

end TestSkeleton
