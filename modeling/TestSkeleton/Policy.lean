import TestSkeleton.Language
import TestSkeleton.Table
import TestSkeleton.Signature
import TestSkeleton.Literal.Basic

/-! The options of a run.

`PolicyFields` holds options as they were given. `Policy` holds options that were checked: work
units are not empty, the timeout is not negative, the language is a known one, and the keys of the
type overrides are in normal spelling. -/

namespace TestSkeleton

open Text Signature

def defaultSkipPatterns : List Text :=
  ["**/target/**", "**/.git/**", "**/node_modules/**"].map String.toList

structure PolicyFields where
  outputDir : Text := "tests".toList
  skipFunctions : List Text := []
  typeMappings : List (Text × Text) := []
  includePrivate : Bool := false
  parallel : Bool := true
  parallelChunkSize : Int := 25
  respectGitignore : Bool := true
  skipPatterns : List Text := defaultSkipPatterns
  timeoutSeconds : Int := 300
  language : Option Text := none
  crateName : Option Text := none
  templatesDir : Option Text := none
  deriving DecidableEq, Repr

structure Policy where
  outputDir : Text := "tests".toList
  skipFunctions : List Text := []
  typeMappings : Table Text Text := []
  includePrivate : Bool := false
  parallel : Bool := true
  parallelChunkSize : Nat := 25
  respectGitignore : Bool := true
  skipPatterns : List Text := defaultSkipPatterns
  timeoutSeconds : Nat := 300
  language : Option Language := none
  crateName : Option Text := none
  templatesDir : Option Text := none
  chunk_pos : 0 < parallelChunkSize := by decide
  deriving DecidableEq, Repr

/-- Why options are refused. -/
inductive PolicyError where
  | emptyChunks
  | negativeTimeout
  | unsupportedLanguage (name : Text)
  deriving DecidableEq, Repr

namespace PolicyError

def message : PolicyError → Text
  | emptyChunks => "parallel_chunk_size must be at least 1".toList
  | negativeTimeout => "timeout_seconds must not be negative".toList
  | unsupportedLanguage name =>
    "Unsupported language '".toList ++ name ++ "' (expected one of: ".toList ++
      Language.listed ++ [')']

end PolicyError

namespace Policy

/-- The policy of a run that nothing configures. -/
def default : Policy := {}

def checkLanguage : Option Text → Except PolicyError (Option Language)
  | none => .ok none
  | some name => match Language.ofName? name with
    | some l => .ok (some l)
    | none => .error (.unsupportedLanguage name)

/-- Checks options. Of two faults the size of work units is named before the timeout, and the
timeout before the language. -/
def ofFields (o : PolicyFields) : Except PolicyError Policy :=
  match o.parallelChunkSize, o.timeoutSeconds with
  | .ofNat (size + 1), .ofNat timeout => do
    let language ← checkLanguage o.language
    return {
      outputDir := o.outputDir
      skipFunctions := o.skipFunctions
      typeMappings := Table.ofList (o.typeMappings.map fun (k, v) => (normalize k, v))
      includePrivate := o.includePrivate
      parallel := o.parallel
      parallelChunkSize := size + 1
      respectGitignore := o.respectGitignore
      skipPatterns := o.skipPatterns
      timeoutSeconds := timeout
      language
      crateName := o.crateName
      templatesDir := o.templatesDir
      chunk_pos := Nat.succ_pos size }
  | .ofNat (_ + 1), .negSucc _ => .error .negativeTimeout
  | _, _ => .error .emptyChunks

def skipsFunction (p : Policy) (name : Text) : Bool :=
  p.skipFunctions.any fun part => !part.isEmpty && contains part name

/-- The override for a type in any spelling. -/
def typeMapping? (p : Policy) : Literal.Overrides := fun type =>
  p.typeMappings.get? (normalize type)

/-- Whether a function is kept: public or private ones allowed, and its name not skipped. -/
def retains (p : Policy) (name : Text) (isPublic : Bool) : Bool :=
  (isPublic || p.includePrivate) && !p.skipsFunction name

end Policy

end TestSkeleton
