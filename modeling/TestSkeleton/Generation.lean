import TestSkeleton.Suite

/-! Test files for functions.

Every function that the policy keeps gives a test case or a warning, whatever becomes of the others.
Cases of one path share a file, and files come in the order of their first cases. Work units only
cut the list of functions into pieces. -/

namespace TestSkeleton

open Text

/-- The test case of a function, or why there is none. -/
structure CaseOutcome where
  function : Function
  result : Except Failure Case

/-- The work of one generation. A failure ends the writing of files, the ones before it written. -/
structure GenerationRun where
  target : Target
  functions : List Function
  units : Option (List (List Function))
  outcomes : List CaseOutcome
  rendered : List (TestFile × Nat)
  failure : Option Failure

namespace CaseOutcome

def case? (o : CaseOutcome) : Option Case := o.result.toOption

/-- Why a function has no test. -/
def reason : Failure → Text
  | .literal cause => cause.reason
  | e => "unexpected error: ".toList ++ e.message

def diagnostic? (o : CaseOutcome) : Option Diagnostic :=
  match o.result with
  | .ok _ => none
  | .error e => some ⟨"synthesis".toList, o.function.file,
      o.function.qualifiedName ++ ": ".toList ++ reason e⟩

end CaseOutcome

namespace GenerationRun

/-- Pieces of a list, all but the last of one size. -/
def unitsWithin {α : Type} (size : Nat) : Nat → List α → List (List α)
  | 0, _ => []
  | _, [] => []
  | steps + 1, xs => xs.take size :: unitsWithin size steps (xs.drop size)

/-- The work units of a list; each holds one element at least. -/
def unitsOf {α : Type} (size : Nat) (xs : List α) : List (List α) :=
  unitsWithin size xs.length xs

/-- The work units when the work is split. -/
def split? (policy : Policy) (functions : List Function) : Option (List (List Function)) :=
  if policy.parallel && policy.parallelChunkSize < functions.length then
    some (unitsOf policy.parallelChunkSize functions)
  else none

def attempt (w : Workspace) (t : Target) (functions : List Function) : List CaseOutcome :=
  functions.map fun f => ⟨f, t.buildCase w f⟩

/-- The cases of every path, in the order of the first case of each. -/
def group (cases : List Case) : Table Text (List Case) :=
  cases.foldl (fun t c => t.put c.path (((t.get? c.path).getD []) ++ [c])) []

/-- Writes files up to the first that fails. -/
def renderAll (w : Workspace) (t : Target) :
    List (Text × List Case) → List (TestFile × Nat) × Option Failure
  | [] => ([], none)
  | (path, cases) :: rest =>
    match t.render w path cases with
    | .error e => ([], some e)
    | .ok file =>
      let (files, failure) := renderAll w t rest
      ((file, cases.length) :: files, failure)

/-- Makes the test files of functions. -/
def ofFunctions (w : Workspace) (t : Target) (functions : List Function) : GenerationRun :=
  let functions := functions.filter fun f => !t.policy.skipsFunction f.name
  let units := split? t.policy functions
  let outcomes := match units with
    | some units => units.flatMap (attempt w t)
    | none => attempt w t functions
  let (rendered, failure) := renderAll w t (group (outcomes.filterMap CaseOutcome.case?))
  { target := t, functions, units, outcomes, rendered, failure }

def files (r : GenerationRun) : List TestFile := r.rendered.map (·.1)

def diagnostics (r : GenerationRun) : List Diagnostic :=
  r.outcomes.filterMap CaseOutcome.diagnostic?

/-- The result of a generation, unless a file could not be written. -/
def result (r : GenerationRun) : Except Failure Generation :=
  match r.failure with
  | some e => .error e
  | none => .ok ⟨r.files, r.diagnostics⟩

end GenerationRun

end TestSkeleton
