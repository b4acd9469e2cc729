import TestSkeleton.Run

/-! The log of a run, drawn up from what the run did. -/

namespace TestSkeleton

open Text

inductive LogLevel where
  | debug
  | info
  | warning
  deriving DecidableEq, Repr

/-- One message, with the part of the program that it comes from. -/
structure LogRecord where
  level : LogLevel
  source : Text
  message : Text
  deriving DecidableEq, Repr

namespace LogLevel

def name : LogLevel → Text
  | debug => "DEBUG".toList
  | info => "INFO".toList
  | warning => "WARNING".toList

/-- Whether messages of a level are kept. -/
def isKept (verbose : Bool) (l : LogLevel) : Bool := verbose || l != debug

end LogLevel

namespace LogRecord

def program : Text := "autotest".toList

/-- The line for the console. -/
def consoleLine (r : LogRecord) : Text :=
  "[autotest] ".toList ++ r.level.name ++ [' '] ++ r.message ++ ['\n']

/-- The line for a log file, given the time. -/
def fileLine (time : Text) (r : LogRecord) : Text :=
  let source := if r.source.isEmpty then program else program ++ ['.'] ++ r.source
  time ++ [' '] ++ r.level.name ++ [' '] ++ source ++ ": ".toList ++ r.message ++ ['\n']

/-- A message made of texts and numbers. -/
def of (level : LogLevel) (source : String) (parts : List Text) : LogRecord :=
  ⟨level, source.toList, parts.flatten⟩

end LogRecord

open LogRecord

namespace Finding

def log? : Finding → Option LogRecord
  | file _ => none
  | duplicate p => some (of .debug "repo_scanner" ["Skipping duplicate path ".toList, p.text])
  | warning d => some (of .warning "repo_scanner" [d.text])

end Finding

namespace Discovery

def log (d : Discovery) : List LogRecord :=
  d.findings.filterMap Finding.log? ++
    [of .debug "repo_scanner" ["Discovered ".toList, ofNat d.files.length,
      " candidate files under ".toList, d.root.text]]

end Discovery

namespace SourceOutcome

def log (o : SourceOutcome) : LogRecord :=
  match o.diagnostic? with
  | some d => of .warning "analyzers" [d.text]
  | none => of .debug "analyzers"
    ["Extracted ".toList, ofNat o.functions.length, " function(s) from ".toList, o.path.text]

end SourceOutcome

namespace Analysis

def log (a : Analysis) : List LogRecord :=
  a.searches.flatMap Discovery.log ++ a.discovery.log ++
    [of .info "analyzers" ["Analyzing ".toList, ofNat a.discovery.files.length, [' '], a.language,
      " file(s) under ".toList, a.discovery.root.text]] ++
    a.outcomes.map SourceOutcome.log ++
    [of .info "analyzers" ["Found ".toList, ofNat a.functions.length, " function(s) across ".toList,
      ofNat a.outcomes.length, " file(s); ".toList, ofNat a.types.size,
      " type signature(s) interned".toList]]

end Analysis

namespace Crate

def log (c : Crate) : List LogRecord :=
  c.unread.toList.map fun m =>
    of .warning "renderers.rust" ["Could not read ".toList, m.path.text, ": ".toList, m.cause]

end Crate

namespace GenerationRun

def dialectLog : Dialect → List LogRecord
  | .rust crate => crate.log
  | .v => []

/-- The number of workers; work units are done one after another. -/
def workers : Nat := 1

def log (r : GenerationRun) : List LogRecord :=
  let timeout := r.target.policy.timeoutSeconds
  dialectLog r.target.dialect ++
    (if timeout = 0 then [] else
      [of .debug "orchestrator"
        ["Timeout for this run: ".toList, ofNat timeout, "s (advisory)".toList]]) ++
    (r.units.toList.map fun units =>
      of .debug "orchestrator" ["Processing ".toList, ofNat units.length, " chunk(s) on ".toList,
        ofNat workers, " worker(s)".toList]) ++
    (r.diagnostics.map fun d => of .warning "orchestrator" [d.text]) ++
    (r.rendered.map fun (file, count) =>
      of .debug "orchestrator"
        ["Rendered ".toList, ofNat count, " test(s) into ".toList, file.path]) ++
    if r.failure.isSome then []
    else [of .info "orchestrator" ["Synthesized ".toList, ofNat r.files.length,
      " test file(s) from ".toList, ofNat r.functions.length, " function(s)".toList]]

end GenerationRun

namespace Run

/-- The messages on files that were saved. -/
def savedLog (files : List TestFile) : List LogRecord :=
  (files.map fun f => of .debug "writer" ["Wrote ".toList, (Path.read f.path).text]) ++
    [of .info "writer" ["Wrote ".toList, ofNat files.length, " test file(s)".toList]]

/-- The log of a run up to the saving of files. -/
def preparedLog (r : Run) : List LogRecord := r.analysis.log ++ r.generation.log

/-- The last message of a run that ended well. -/
def closingLog (r : Run) : List LogRecord :=
  if r.diagnostics.isEmpty then []
  else [of .info "" ["Finished with ".toList, ofNat r.diagnostics.length, " warning(s)".toList]]

def log (r : Run) (saved : Bool) : List LogRecord :=
  r.preparedLog ++ (if saved then savedLog r.files else []) ++ r.closingLog

end Run

end TestSkeleton
