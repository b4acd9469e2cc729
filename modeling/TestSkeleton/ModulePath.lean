import TestSkeleton.Language
import TestSkeleton.Text.Basic

/-! Where a source file stands in the modules of its project, and the test file of a module. -/

namespace TestSkeleton

open Text

/-- The names of a module and the modules around it, from the outermost; the root has none. -/
abbrev ModulePath := List Text

namespace ModulePath

/-- The parts between slashes of either kind. -/
def slashParts (path : Text) : List Text := splitWhere (fun c => c == '/' || c == '\\') path

def source : Text := "src".toList

/-- The path without a leading part that another part follows. -/
def withoutLead (lead : Text) : List Text → List Text
  | first :: next :: rest => if first = lead then next :: rest else first :: next :: rest
  | parts => parts

/-- The path without its leading `.` part, then without its leading `src` part. -/
def withoutSource (parts : List Text) : List Text := withoutLead source (withoutLead ['.'] parts)

/-- The module of a Rust file is its path below `src` without the file suffix; a `mod.rs` belongs to
its folder, and a crate root to the empty path. -/
def ofRustFile (path : Text) : ModulePath :=
  let parts := withoutSource (slashParts path)
  if parts = ["lib.rs".toList] ∨ parts = ["main.rs".toList] then []
  else
    let parts := parts.filter (· ≠ [])
    match parts.getLast? with
    | none => []
    | some last =>
      if last = "mod.rs".toList then parts.dropLast
      else match dropSuffix? ".rs".toList last with
        | some stem => parts.dropLast ++ [stem]
        | none => parts

/-- The module of a V file is its folder below `src`. -/
def ofVFile (path : Text) : ModulePath :=
  let folders := ((slashParts path).filter fun part => part ≠ [] ∧ part ≠ ['.']).dropLast
  if folders.head? = some source then folders.tail else folders

def ofFile : Language → Text → ModulePath
  | .rust => ofRustFile
  | .v => ofVFile

/-- The name of the file with the tests of a module. -/
def testFileName (l : Language) (module : ModulePath) : Text :=
  let stem (whole part : String) : Text :=
    if module.isEmpty then whole.toList else join ['_'] module ++ part.toList
  match l with
  | .rust => stem "integration_tests.rs" "_tests.rs"
  | .v => stem "integration_test.v" "_test.v"

end ModulePath

end TestSkeleton
