import TestSkeleton.Case.Rust
import TestSkeleton.Case.V

/-! The test case of a function in either language. -/

namespace TestSkeleton.Target

/-- What tests are made for, given a project and the name of its language. -/
def ofProject (w : Workspace) (language : Text) (root : Path) (policy : Policy) :
    Except Failure Target := do
  let dialect ← match Language.ofName? language with
    | none => throw (.language ⟨.rendering, language⟩)
    | some .rust => Dialect.rust <$> Crate.detect w root policy
    | some .v => pure Dialect.v
  return ⟨root, policy, dialect⟩

/-- The test case of a function, whose file may lie anywhere. -/
def buildCase (w : Workspace) (t : Target) (f : Function) : Except Failure Case := do
  let module ← t.moduleOf w f
  let case := match t.dialect with
    | .rust crate => Rust.caseOf t crate module f
    | .v => V.caseOf t module f
  case.mapError .literal

end TestSkeleton.Target
