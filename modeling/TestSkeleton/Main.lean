import Std.Time.Format
import TestSkeleton.CommandLine

/-! The program: it loads what a command may look at, carries the command out, and writes back what
has changed. -/

namespace TestSkeleton.Program

open Text

def pathText (place : Place) : String :=
  "/" ++ String.intercalate "/" (place.map String.ofList)

/-- What stands at a place; a link leads to the true path of its target. -/
def readEntry (place : Place) : IO (Option Entry) := do
  let path := (← IO.currentDir) / pathText place
  try
    match (← path.symlinkMetadata).type with
    | .dir => return some .folder
    | .symlink => return some (.link (← IO.FS.realPath path).toString.toList)
    | _ => return some (.file (← IO.FS.readBinFile path).toList)
  catch _ => return none

/-- Loads an entry, unless it is loaded. -/
def loadEntry (t : FileTree) (place : Place) : IO FileTree := do
  if (t.entryAt? place).isSome then return t
  match ← readEntry place with
  | some entry => return t.put place entry
  | none => return t

/-- Loads what a path leads through, from the topmost folder down. -/
def loadPath (t : FileTree) (p : Path) : IO FileTree := do
  let mut t := t
  for n in List.range p.parts.length do
    let place := p.parts.take (n + 1)
    t ← loadEntry t place
    if let some (.link target) := t.entryAt? place then
      for m in List.range (Path.names target).length do
        t ← loadEntry t ((Path.names target).take (m + 1))
  return t

/-- Loads a folder with all that lies inside, but for folders that no walk enters. -/
partial def loadFolder (t : FileTree) (place : Place) : IO FileTree := do
  let mut t := t
  for e in ← ((← IO.currentDir) / pathText place).readDir do
    let inner := place ++ [e.fileName.toList]
    t ← loadPath t ⟨.slash, inner⟩
    if t.entryAt? inner == some .folder && !Discovery.closedFolders.contains e.fileName.toList then
      t ← loadFolder t inner
  return t

/-- The variables of the environment that a command looks at. -/
def environment : IO (Table Text Text) := do
  let names := ["HOME".toList, "XDG_CONFIG_HOME".toList] ++ Setting.all.map Settings.variableName
  let mut found : Table Text Text := []
  for name in names do
    if let some value ← IO.getEnv (String.ofList name) then
      found := found.put name value.toList
  return found

/-- The paths that a command looks at before it knows the root of the project. -/
def firstPaths (w : Workspace) (a : CommandLine.Arguments) (start : Path) : List Path :=
  let around := start.selfAndParents.flatMap fun p => projectMarkers.map p.child
  let home : List Path := w.home.toOption.toList
  let user : List Path := (Settings.userFolder w).toOption.toList
  let base : List Path := match w.filledVariable? "XDG_CONFIG_HOME".toList with
    | some base => [Path.read base]
    | none => home.map (·.child ".config".toList)
  let asked := (a.config.toList ++ a.logFile.toList).map Path.read
  [start] ++ around ++ home.map (·.child ".gitconfig".toList) ++
    user.flatMap (fun p => Settings.userNames.map p.child) ++
    base.map (·.child "git/ignore".toList) ++ asked ++ Settings.projectNames.map start.child

/-- Loads what a command may look at. -/
def load (a : CommandLine.Arguments) : IO Workspace := do
  let current := Path.names (← IO.FS.realPath (← IO.currentDir)).toString.toList
  let mut w : Workspace := { current, environment := ← environment }
  w := { w with files := ← loadPath w.files ⟨.slash, current⟩ }
  let given := Path.read a.path
  let start := w.absolute ((w.expandHome given).toOption.getD given)
  for p in firstPaths w a start do
    w := { w with files := ← loadPath w.files (w.absolute p) }
  for p in ((IgnoreSource.userFile? w).toOption.bind id).toList do
    w := { w with files := ← loadPath w.files (w.absolute p) }
  if let .ok root := findProjectRoot w given then
    w := { w with files := ← loadPath w.files (root.child ".git/info/exclude".toList) }
    w := { w with files := ← loadFolder w.files root.parts }
  return w

/-- Writes what has changed. -/
def store (before after : FileTree) : IO Unit := do
  for (place, entry) in after.entries do
    if before.entryAt? place != some entry then
      match entry with
      | .folder => IO.FS.createDirAll (pathText place)
      | .file content => IO.FS.writeBinFile (pathText place) (ByteArray.mk content.toArray)
      | .link _ => pure ()

/-- The time of day with its date, down to thousandths of a second. -/
def timeText : IO Text := do
  let now := (toString (← Std.Time.PlainDateTime.now)).toList
  return (now.take 23).map fun c => if c == 'T' then ' ' else if c == '.' then ',' else c

/-- A name of eight characters for temporary files. -/
def randomTag : IO Text := do
  let letters := "abcdefghijklmnopqrstuvwxyz0123456789_".toList
  (List.range 8).mapM fun _ => return letters.getD (← IO.rand 0 (letters.length - 1)) 'a'

def run (words : List String) : IO UInt32 := do
  let words := words.map String.toList
  let a := match CommandLine.Arguments.read words with
    | .ok (_, a) => a
    | .error _ => {}
  let before ← load a
  let (result, after) := (CommandLine.run ⟨← randomTag, ← timeText⟩ words).run before
  store before.files after.files
  match result with
  | .ok outcome =>
    (← IO.getStdout).putStr (String.ofList outcome.output)
    (← IO.getStderr).putStr (String.ofList outcome.messages)
    return outcome.status.toUInt32
  | .error e =>
    (← IO.getStderr).putStrLn ("autotest: " ++ String.ofList e.message)
    return 1

end TestSkeleton.Program

def main (words : List String) : IO UInt32 := TestSkeleton.Program.run words
