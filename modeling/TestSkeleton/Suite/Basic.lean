import TestSkeleton.Case.Basic
import TestSkeleton.Naming.Unique
import TestSkeleton.Report

/-! Suites: the tests that share a file. -/

namespace TestSkeleton

open Text

/-- A test under the name that it has in its file. -/
structure NamedCase where
  name : Text
  case : Case
  deriving DecidableEq, Repr

structure Suite where
  module : ModulePath
  cases : List NamedCase
  deriving DecidableEq, Repr

namespace Suite

/-- The suite of some cases; the first of them tells the module. -/
def ofCases (cases : List Case) : Suite :=
  { module := (cases.head?.map (·.module)).getD []
    cases := ((Naming.unique (cases.map (·.name))).zip cases).map fun (name, case) => ⟨name, case⟩ }

/-- The first line of every file of tests. -/
def headline : Text :=
  "// Generated by autotest. Review the synthesized values before relying on them.\n".toList

end Suite

end TestSkeleton
