import TestSkeleton.Suite.Basic

/-! Test files in Rust. -/

namespace TestSkeleton.Rust

open Text

def indent : Text := "    ".toList

def suiteHeader (crate : Text) (module : ModulePath) : Text :=
  let imported := if module.isEmpty then []
    else "use ".toList ++ crate ++ "::".toList ++ join "::".toList module ++ "::*;\n".toList
  Suite.headline ++ "#![allow(unused_imports, unused_variables, unused_mut)]\n\n".toList ++
    "use ".toList ++ crate ++ "::*;\n".toList ++ imported

def localLine (b : Binding) : Text :=
  indent ++ (if b.isMutable then "let mut " else "let ").toList ++ b.name ++ " = ".toList ++
    b.value ++ ";\n".toList

/-- One test, with an empty line in front of it. -/
def testBlock (c : NamedCase) : Text :=
  let head := if c.case.function.isAsync then "\n#[tokio::test]\nasync fn " else "\n#[test]\nfn "
  head.toList ++ c.name ++ "() \x7b\n".toList ++
    indent ++ "// Arrange\n".toList ++ c.case.locals.flatMap localLine ++ "\n".toList ++
    indent ++ "// Act\n".toList ++
    indent ++ "let result = ".toList ++ c.case.call ++ ";\n\n".toList ++
    indent ++ "// Assert\n".toList ++
    indent ++ c.case.assertion ++ "\n\x7d\n".toList

def suiteText (crate : Text) (s : Suite) : Text :=
  suiteHeader crate s.module ++ s.cases.flatMap testBlock

end TestSkeleton.Rust
