import TestSkeleton.Ignore.Source
import TestSkeleton.Pattern.Skip
import TestSkeleton.Policy
import TestSkeleton.Report

/-! The source files of a project.

A walk goes through the folders from the root down, and passes over what ignore rules and the
policy leave out. Of all names of one file the first is kept. -/

namespace TestSkeleton

open Text

/-- What a walk meets in order: files that nothing leaves out, and ignore files that it could not
read. -/
inductive Visit where
  | file (place : Place)
  | warning (d : Diagnostic)
  deriving DecidableEq, Repr

/-- What becomes of the files that a walk meets. -/
inductive Finding where
  | file (p : Path)
  | duplicate (p : Path)
  | warning (d : Diagnostic)
  deriving DecidableEq, Repr

structure Discovery where
  root : Path
  findings : List Finding
  deriving DecidableEq, Repr

namespace Finding

def file? : Finding → Option Path
  | file p => some p
  | _ => none

def warning? : Finding → Option Diagnostic
  | warning d => some d
  | _ => none

end Finding

namespace Discovery

def files (d : Discovery) : List Path := d.findings.filterMap Finding.file?

def diagnostics (d : Discovery) : List Diagnostic := d.findings.filterMap Finding.warning?

/-- The names of folders that are never entered. -/
def closedFolders : List Text :=
  [".git", ".hg", ".svn", "target", "node_modules", ".venv", "__pycache__", ".idea", ".vscode",
    ".vmodules"].map String.toList

def warn (p : Path) (message : Text) : Diagnostic := ⟨"discovery".toList, p.text, message⟩

/-- The rules of an ignore file, or why it could not be read. -/
def rulesAt (w : Workspace) (base : Text) (p : Path) : List IgnoreRule × List Visit :=
  match IgnoreSource.rulesOf w base p with
  | .ok rules => (rules, [])
  | .error cause =>
    ([], [.warning (warn p ("cannot read ignore file: ".toList ++ cause.message))])

/-- The rules that hold in the whole project. -/
def sharedRules (w : Workspace) (policy : Policy) (root : Path) :
    Except Failure (List IgnoreRule × List Visit) := do
  if !policy.respectGitignore then return ([], [])
  let user ← IgnoreSource.userFile? w
  let found := (user.toList ++ [root.child ".git/info/exclude".toList]).map (rulesAt w [])
  return (found.flatMap (·.1), found.flatMap (·.2))

/-- The folder for test files, as paths below the root name it. -/
def outputFolder (policy : Policy) : Text :=
  (trimMatches (· == '/') policy.outputDir).map fun c => if c == '\\' then '/' else c

/-- Whether rules or the policy leave out what lies at a place. -/
def isLeftOut (policy : Policy) (rules : List IgnoreRule) (place : Place) (isFolder : Bool) :
    Bool :=
  let path := join ['/'] place
  isIgnored rules path isFolder || matchesSkipPattern policy.skipPatterns path

/-- Whether a folder is entered. -/
def isEntered (policy : Policy) (rules : List IgnoreRule) (place : Place) : Bool :=
  !(place.getLast?.any closedFolders.contains) &&
    !(outputFolder policy ≠ [] && join ['/'] place == outputFolder policy) &&
    !isLeftOut policy rules place true

/-- Whether an entry of a folder counts as a folder. -/
def leadsToFolder (w : Workspace) (p : Path) : Bool :=
  match w.isFolder p with
  | .ok b => b
  | .error _ => false

/-- Visits a folder, given its place below the root and the rules around it, and goes through its
folders up to a depth. A link to a folder is not entered. -/
def visit (w : Workspace) (policy : Policy) (root : Path) :
    (depth : Nat) → Place → List IgnoreRule → List Visit
  | 0, _, _ => []
  | depth + 1, place, outer =>
    let folder : Path := ⟨root.root, root.parts ++ place⟩
    let (own, warnings) :=
      if policy.respectGitignore then
        rulesAt w (join ['/'] place) (folder.child ".gitignore".toList)
      else ([], [])
    let rules := outer ++ own
    let here := (w.files.namesIn folder.parts).map fun name => place ++ [name]
    let isFolder (p : Place) : Bool := leadsToFolder w ⟨root.root, root.parts ++ p⟩
    let files := here.filter fun p => !isFolder p && !isLeftOut policy rules p false
    let inner := here.filter fun p =>
      w.files.entryAt? (root.parts ++ p) == some .folder && isEntered policy rules p
    warnings ++ files.map .file ++ inner.flatMap fun p => visit w policy root depth p rules

/-- Whether a name ends in one of several ways, letter case apart. -/
def hasSuffix (suffixes : List Text) (name : Text) : Bool :=
  suffixes.any fun suffix => endsWith (lower suffix) (lower name)

/-- What becomes of what a walk meets, given the true paths of the files found so far. -/
def sift (w : Workspace) (root : Path) (suffixes : List Text) (seen : List Path) :
    List Visit → List Finding
  | [] => []
  | .warning d :: rest => .warning d :: sift w root suffixes seen rest
  | .file place :: rest =>
    let p : Path := ⟨root.root, root.parts ++ place⟩
    if !hasSuffix suffixes p.name then sift w root suffixes seen rest
    else match w.isFile p with
      | .error cause =>
        .warning (warn p ("cannot stat file: ".toList ++ cause.message)) ::
          sift w root suffixes seen rest
      | .ok false => sift w root suffixes seen rest
      | .ok true =>
        let whole := (w.resolve p).toOption.getD p
        if seen.contains whole then .duplicate p :: sift w root suffixes seen rest
        else .file p :: sift w root suffixes (whole :: seen) rest

/-- The deepest that folders can be nested in each other. -/
def depthLimit (w : Workspace) : Nat := w.files.entries.length + 1

/-- The files below a folder whose names have one of the suffixes. -/
def scan (w : Workspace) (policy : Policy) (start : Path) (suffixes : List Text) :
    Except Failure Discovery := do
  let root ← w.resolve (← w.expandHome start)
  if !(← (w.isPresent root).mapError .file) then throw (.root (.notFound start.text))
  if !(← (w.isFolder root).mapError .file) then throw (.root (.notFolder start.text))
  let (rules, warnings) ← sharedRules w policy root
  let visits := warnings ++ visit w policy root (depthLimit w) [] rules
  return ⟨root, sift w root suffixes [] visits⟩

end Discovery

end TestSkeleton
