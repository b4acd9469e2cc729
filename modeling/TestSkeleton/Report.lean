import TestSkeleton.Function

/-! What a run yields: test files, and a warning for each failure it survived. -/

namespace TestSkeleton

structure Diagnostic where
  stage : Text
  path : Text
  message : Text
  deriving DecidableEq, Repr

namespace Diagnostic

def text (d : Diagnostic) : Text :=
  ['['] ++ d.stage ++ "] ".toList ++ d.path ++ ": ".toList ++ d.message

end Diagnostic

structure TestFile where
  path : Text
  content : Text
  deriving DecidableEq, Repr

structure Generation where
  files : List TestFile := []
  diagnostics : List Diagnostic := []
  deriving DecidableEq, Repr

end TestSkeleton
