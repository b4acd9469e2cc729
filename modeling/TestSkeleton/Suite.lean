import TestSkeleton.Case
import TestSkeleton.Suite.Names
import TestSkeleton.Template.Reader

/-! Writing suites as test files.

A project can have a template of its own, which then takes the place of the usual text. -/

namespace TestSkeleton

open Text

namespace Dialect

/-- The name of a project's own template. -/
def templateName : Dialect → Text
  | rust _ => "rust_tests.rs.j2".toList
  | v => "v_test.v.j2".toList

/-- The usual text of a suite. -/
def suiteText (d : Dialect) (s : Suite) : Text :=
  match d with
  | rust crate => Rust.suiteText crate.name s
  | v => V.suiteText s

end Dialect

namespace Target

/-- The project's own template, if it has one. -/
def template? (w : Workspace) (t : Target) : Except Failure (Option Text) :=
  match t.policy.templatesDir.filter (· ≠ []) with
  | none => .ok none
  | some folder =>
    let p := (t.root.append (Path.read folder)).child t.dialect.templateName
    match w.isFile p with
    | .ok true => match w.readText p with
      | .ok text => .ok (some text)
      | .error (.file cause) => .error (.file cause)
      | .error (.utf8 cause) => .error (.utf8 cause)
    | _ => .ok none

/-- The text with one line end behind its last line. -/
def closeLine (t : Text) : Text := dropEndWhile (· == '\n') t ++ ['\n']

/-- The file of some cases. -/
def render (w : Workspace) (t : Target) (path : Text) (cases : List Case) :
    Except Failure TestFile := do
  let suite := Suite.ofCases cases
  let content ← match ← t.template? w with
    | none => pure (t.dialect.suiteText suite)
    | some template =>
      let filled := do Template.fillAll (t.dialect.names suite) (← Template.read template)
      filled.mapError fun fault => .config (.template t.dialect.templateName fault.message)
  return ⟨path, closeLine content⟩

end Target

end TestSkeleton
