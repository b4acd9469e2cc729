import TestSkeleton.Suite.Basic

/-! Test files in V. -/

namespace TestSkeleton.V

open Text

def indent : Text := ['\t']

/-- Whether a literal names the module of times. -/
def usesTime (b : Binding) : Bool := contains "time.".toList b.value

/-- The modules that a file imports: the one under test, and that of times where a literal needs
it. -/
def imports (s : Suite) : List Text :=
  (if s.module.isEmpty then [] else [join ['.'] s.module]) ++
    if s.cases.any fun c => c.case.locals.any usesTime then ["time".toList] else []

/-- Tests of the root module belong to the main module. -/
def suiteHeader (s : Suite) : Text :=
  let main := if s.module.isEmpty then
      "module main\n".toList ++ if (imports s).isEmpty then [] else ['\n']
    else []
  Suite.headline ++ main ++
    (imports s).flatMap fun name => "import ".toList ++ name ++ ['\n']

/-- Whether a call of the function has a result to keep. -/
def returnsValue (f : Function) : Bool :=
  !f.returns.isEmpty && f.returns != ['!'] && f.returns != ['?']

def localLine (b : Binding) : Text :=
  indent ++ (if b.isMutable then "mut ".toList else []) ++ b.name ++ " := ".toList ++ b.value ++
    ['\n']

/-- One test, with an empty line in front of it. -/
def testBlock (c : NamedCase) : Text :=
  let kept := if returnsValue c.case.function then "result := ".toList else []
  "\nfn ".toList ++ c.name ++ "() \x7b\n".toList ++
    indent ++ "// Arrange\n".toList ++ c.case.locals.flatMap localLine ++ "\n".toList ++
    indent ++ "// Act\n".toList ++
    indent ++ kept ++ c.case.call ++ "\n\n".toList ++
    indent ++ "// Assert\n".toList ++
    indent ++ c.case.assertion ++ "\n\x7d\n".toList

def suiteText (s : Suite) : Text := suiteHeader s ++ s.cases.flatMap testBlock

end TestSkeleton.V
