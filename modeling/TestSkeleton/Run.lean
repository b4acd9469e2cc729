import TestSkeleton.Analysis
import TestSkeleton.Generation
import TestSkeleton.ProjectRoot
import TestSkeleton.Settings.File

/-! A whole run: from a path inside a project to its test files.

Everything up to the saving of files only looks at the workspace, so a run that saves nothing has
the same result as one that does. -/

namespace TestSkeleton

structure Run where
  analysis : Analysis
  generation : GenerationRun

namespace Run

def files (r : Run) : List TestFile := r.generation.files

/-- The warnings of the analysis, then those of the generation. -/
def diagnostics (r : Run) : List Diagnostic := r.analysis.diagnostics ++ r.generation.diagnostics

/-- The run on the project around a path. The policy is the given one or the project's. -/
def prepare (w : Workspace) (start : Path) (policy : Option Policy := none) :
    Except Failure Run := do
  let root ← findProjectRoot w start
  let policy ← match policy with
    | some policy => pure policy
    | none => Policy.load w root
  let analysis ← Analysis.analyze w policy root
  let target ← Target.ofProject w analysis.language analysis.discovery.root policy
  return ⟨analysis, GenerationRun.ofFunctions w target analysis.functions⟩

/-- The result of a run, unless a file could not be made. -/
def result (r : Run) : Except Failure Generation := do
  let generation ← r.generation.result
  return ⟨generation.files, r.diagnostics⟩

end Run

/-- A computation on a workspace that may fail in any way. -/
abbrev Task (α : Type) := ExceptT Failure (StateM Workspace) α

namespace Task

def ofExcept {α : Type} : Except Failure α → Task α
  | .ok a => return a
  | .error e => throw e

/-- What is seen in the workspace, without a change. -/
def look {α : Type} (f : Workspace → Except Failure α) : Task α := do ofExcept (f (← get))

/-- A change, whose failure is a failure of the task. -/
def change {α : Type} (c : Change α) : Task α := do
  let (result, w) := c.run (← get)
  set w
  ofExcept (result.mapError .file)

end Task

/-- Ends a run: its files are saved, if they are to be. -/
def Run.finish (tag : Text) (saves : Bool) (r : Run) : Task Generation := do
  let result ← Task.ofExcept r.result
  if saves then
    let _ ← Task.change (Change.saveAll tag result.files)
  return result

/-- Makes the test files of the project around a path, and saves them if asked to. -/
def generateTests (tag : Text) (start : Path) (policy : Option Policy) (saves : Bool) :
    Task Generation := do
  let run ← Task.look fun w => Run.prepare w start policy
  run.finish tag saves

end TestSkeleton
