import TestSkeleton.CommandLine.Arguments
import TestSkeleton.Log

/-! The commands: making the tests of a project, and writing a first configuration file. -/

namespace TestSkeleton

open Text

/-- How a command ended, and what it printed. -/
structure Outcome where
  status : Nat := 0
  output : Text := []
  messages : Text := []
  deriving DecidableEq, Repr

namespace Failure

/-- Failures that end a command with a message of its own. All others end the program. -/
def isForeseen : Failure → Bool
  | config _ | root _ | language _ | extraction _ _ | literal _ => true
  | file _ | utf8 _ | linkLoop _ | noHome | document _ => false

end Failure

namespace CommandLine

/-- The accidents of a run: the name of temporary files, and the time in log files. -/
structure Circumstances where
  tag : Text
  time : Text

/-- A path as seen from the current folder, when it lies there. -/
def shownPath (w : Workspace) (p : Path) : Text :=
  ((Path.relativeTo? ⟨.slash, w.current⟩ p).getD p).text

namespace Arguments

/-- The settings that arguments make. -/
def overrides (a : Arguments) : List (Text × Value) :=
  let entry (s : Setting) (v : Option Value) : List (Text × Value) :=
    v.toList.map fun v => (s.name, v)
  let flag (given : Bool) (value : Bool) : Option Value :=
    if given then some (.scalar (.flag value)) else none
  entry .outputDir (a.outputDir.map .text) ++
    entry .includePrivate (flag a.includePrivate true) ++
    entry .skipFunctions
      (if a.skipFunctions.isEmpty then none else some (.texts a.skipFunctions)) ++
    entry .parallel (flag a.noParallel false) ++
    entry .parallelChunkSize (a.chunkSize.map fun i => .scalar (.int i)) ++
    entry .respectGitignore (flag a.noGitignore false) ++
    entry .language (a.language.map .text)

/-- Adds messages to the log file, if there is one. -/
def writeLog (c : Circumstances) (a : Arguments) (records : List LogRecord) : Task Unit := do
  match a.logFile with
  | none => return
  | some name =>
    let lines := (records.filter (·.level.isKept a.verbose)).flatMap (LogRecord.fileLine c.time)
    let p := (← get).absolute (Path.read name)
    Task.change (Change.appendFile p (Utf8.encode lines))

def consoleText (a : Arguments) (records : List LogRecord) : Text :=
  (records.filter (·.level.isKept a.verbose)).flatMap LogRecord.consoleLine

/-- The end of a command that failed, after some messages; failures that are not foreseen go on. -/
def failed (a : Arguments) (records : List LogRecord) (e : Failure) : Task Outcome :=
  if e.isForeseen then
    return {
      status := 1
      messages :=
        a.consoleText records ++ "autotest generate failed: ".toList ++ e.message ++ ['\n'] }
  else throw e

/-- The lines on the files of a run. -/
def fileLines (w : Workspace) (a : Arguments) (files : List TestFile) : Text :=
  if files.isEmpty then "No tests generated (no matching functions found)\n".toList
  else files.flatMap fun f =>
    (if a.dryRun then "Would write " else "Wrote ").toList ++ shownPath w (Path.read f.path) ++
      ['\n']

def warningLines (diagnostics : List Diagnostic) : Text :=
  diagnostics.flatMap fun d => "warning: ".toList ++ d.text ++ ['\n']

/-- The run that arguments ask for. -/
def prepare (a : Arguments) (w : Workspace) : Except Failure Run := do
  let root ← findProjectRoot w (Path.read a.path)
  let policy ← Policy.load w root
    { asked := a.config.map Path.read, overrides := a.overrides }
  Run.prepare w root (some policy)

/-- Makes the tests of a project, or only tells which files that would write. -/
def generate (c : Circumstances) (a : Arguments) : Task Outcome := do
  let w ← get
  match a.prepare w with
  | .error e => a.failed [] e
  | .ok run =>
    a.writeLog c run.preparedLog
    match run.result with
    | .error e => a.failed run.preparedLog e
    | .ok result =>
      let _ ← run.finish c.tag (!a.dryRun)
      let log := run.log (!a.dryRun)
      a.writeLog c (log.drop run.preparedLog.length)
      return {
        output := a.fileLines w result.files
        messages := a.consoleText log ++ warningLines result.diagnostics }

/-- The name of the configuration file that is written. -/
def configName : Text := "auto_test.yaml".toList

/-- The configuration files that a folder has. -/
def configFiles (w : Workspace) (folder : Path) : Except Failure (List Path) := do
  let found ← Settings.projectNames.filterMapM fun name => do
    let p := folder.child name
    return if ← (w.isPresent p).mapError Failure.file then some p else none
  return found

/-- The folder that the first configuration file is for. -/
def folder (a : Arguments) (w : Workspace) : Except Failure Path := do
  w.resolve (← w.expandHome (Path.read a.path))

/-- Writes the default policy as a configuration file, where none is there or force is used. -/
def init (a : Arguments) (refusals : Change.Refusals := {}) : Task Outcome := do
  let w ← get
  let root ← Task.look a.folder
  if !(← Task.look fun w => (w.isFolder root).mapError .file) then
    return {
      status := 1
      messages := "Project path not found: ".toList ++ a.path ++ ['\n'] }
  match ← Task.look fun w => configFiles w root, a.force with
  | p :: _, false =>
    return {
      status := 1
      messages := shownPath w p ++ " already exists (use --force to overwrite)\n".toList }
  | _, _ =>
    let p := root.child configName
    let (result, after) := (Policy.default.write p refusals).run w
    set after
    match result with
    | .ok () =>
      return { output := "Configuration created at ".toList ++ shownPath w p ++ ['\n'] }
    | .error e =>
      return { status := 1, messages := "autotest init failed: ".toList ++ e.message ++ ['\n'] }

end Arguments

/-- Carries out a command line, where the surroundings may refuse the writing of a first configuration file. -/
def run (c : Circumstances) (words : List Text) (refusals : Change.Refusals := {}) : Task Outcome := do
  match Arguments.read words with
  | .error .help => return { output := Stop.help.text }
  | .error stop => return { status := 2, messages := stop.text }
  | .ok (command, a) =>
    a.writeLog c []
    match command with
    | .generate => a.generate c
    | .init => a.init refusals

end CommandLine

end TestSkeleton
