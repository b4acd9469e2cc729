import TestSkeleton.Discovery
import TestSkeleton.Extraction

/-! The functions of a project.

Every source file is read on its own. One that cannot be read or parsed gives a warning and
nothing else. -/

namespace TestSkeleton

open Text

/-- The language of a project, and the searches that were made to tell it. -/
structure Detection where
  language : Language
  searches : List Discovery := []
  deriving Repr

/-- What reading a source file gave. -/
structure SourceOutcome where
  path : Path
  result : Except ExtractionError (List Function)

structure Analysis where
  language : Text
  searches : List Discovery
  discovery : Discovery
  outcomes : List SourceOutcome

namespace Language

/-- The file in the root of a project that shows its language. -/
def manifest : Language → Text
  | rust => "Cargo.toml".toList
  | v => "v.mod".toList

end Language

namespace Detection

def byManifest? (w : Workspace) (root : Path) : List Language → Except FileError (Option Language)
  | [] => .ok none
  | l :: rest => do
    if ← w.isFile (root.child l.manifest) then return some l
    byManifest? w root rest

/-- The number of source files among those that were found. -/
def count (l : Language) (d : Discovery) : Nat := d.files.countP fun p => l.acceptsName p.name

/-- The language with the most files; the first of those, and Rust when there is no file. -/
def mostFrequent (counts : List (Language × Nat)) : Language :=
  (counts.foldl (fun best c => if best.2 < c.2 then c else best) (Language.rust, 0)).1

/-- The language of a project: the policy's, else that of its manifest, else the most frequent. -/
def detect (w : Workspace) (policy : Policy) (root : Path) : Except Failure Detection := do
  match policy.language with
  | some l => return ⟨l, []⟩
  | none =>
    match ← (byManifest? w root Language.all).mapError .file with
    | some l => return ⟨l, []⟩
    | none =>
      let found ← Language.all.mapM fun l => do
        return (l, ← Discovery.scan w policy root [l.fileSuffix])
      return ⟨mostFrequent (found.map fun (l, d) => (l, count l d)), found.map (·.2)⟩

end Detection

namespace SourceOutcome

def functions (o : SourceOutcome) : List Function :=
  match o.result with
  | .ok functions => functions
  | .error _ => []

def diagnostic? (o : SourceOutcome) : Option Diagnostic :=
  match o.result with
  | .ok _ => none
  | .error cause => some ⟨"extraction".toList, o.path.text, cause.reason⟩

end SourceOutcome

namespace Analysis

def functions (a : Analysis) : List Function := a.outcomes.flatMap SourceOutcome.functions

/-- The warnings of the walk, then those of the files in their order. -/
def diagnostics (a : Analysis) : List Diagnostic :=
  a.discovery.diagnostics ++ a.outcomes.filterMap SourceOutcome.diagnostic?

/-- The types in the signatures of all files. -/
def types (a : Analysis) : Interner := Interner.internAll {} a.functions

/-- Reads one source file. -/
def readSource (w : Workspace) (policy : Policy) (l : Language) (p : Path) : SourceOutcome :=
  let result := match w.readText p with
    | .ok source => l.extract policy p.text source
    | .error cause => .error (.unreadable cause)
  ⟨p, result⟩

/-- Reads a project. A language that is asked for, in any letter case, is not looked for. -/
def analyze (w : Workspace) (policy : Policy) (start : Path) (asked : Option Text := none) :
    Except Failure Analysis := do
  let root ← w.resolve (← w.expandHome start)
  if !(← (w.isFolder root).mapError .file) then throw (.root (.notUsable start.text))
  let (name, searches) ← match asked.filter (· ≠ []) with
    | some name => pure (name, [])
    | none => do
      let d ← Detection.detect w policy root
      pure (d.language.name, d.searches)
  let l ← extractionLanguage name
  let discovery ← Discovery.scan w policy root [l.fileSuffix]
  let sources := discovery.files.filter fun p => l.acceptsName p.name
  return ⟨name, searches, discovery, sources.map (readSource w policy l)⟩

end Analysis

end TestSkeleton
