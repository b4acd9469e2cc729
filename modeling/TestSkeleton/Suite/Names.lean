import TestSkeleton.Suite.Rust
import TestSkeleton.Suite.V
import TestSkeleton.Template.Basic

/-! What the names in a template of a test file stand for. -/

namespace TestSkeleton

open Text

namespace Template

def pair (name : String) (d : Datum) : Text × Datum := (name.toList, d)

def ofParameter (p : Parameter) : Datum :=
  .record [pair "name" (.text p.name), pair "type_signature" (.text p.type),
    pair "is_receiver" (.flag p.isReceiver)]

def ofFunction (f : Function) : Datum :=
  .record [pair "name" (.text f.name), pair "parameters" (.tuple (f.parameters.map ofParameter)),
    pair "return_type_signature" (.text f.returns), pair "source_file" (.text f.file),
    pair "is_async" (.flag f.isAsync), pair "owner" (.optional f.owner),
    pair "scope" (.textTuple f.scope), pair "receiver" ((f.receiver?.map ofParameter).getD .null),
    pair "arguments" (.tuple (f.arguments.map ofParameter)),
    pair "qualified_name" (.text f.qualifiedName)]

def ofBinding (b : Binding) : Datum :=
  .record [pair "local" (.text b.name), pair "value" (.text b.value),
    pair "mutable" (.flag b.isMutable)]

/-- A test, with the fields that its dialect adds. -/
def ofCase (added : Case → List (Text × Datum)) (c : NamedCase) : Datum :=
  .record ([pair "name" (.text c.name), pair "is_async" (.flag c.case.function.isAsync),
    pair "locals" (.list (c.case.locals.map ofBinding)), pair "call" (.text c.case.call),
    pair "assertion" (.text c.case.assertion), pair "function" (ofFunction c.case.function)] ++
    added c.case)

end Template

namespace Dialect

open Template

def indent : Dialect → Text
  | rust _ => Rust.indent
  | v => V.indent

/-- The names that a dialect adds for a whole file. -/
def fileNames (s : Suite) : Dialect → List (Text × Datum)
  | rust crate => [pair "crate_name" (.text crate.name)]
  | v => [pair "imports" (.texts (V.imports s))]

/-- The fields that a dialect adds to each test. -/
def caseFields : Dialect → Case → List (Text × Datum)
  | rust _, _ => []
  | v, c => [pair "returns_value" (.flag (V.returnsValue c.function))]

def names (d : Dialect) (s : Suite) : Template.Names :=
  [pair "module" (.textTuple s.module), pair "cases" (.list (s.cases.map (ofCase d.caseFields))),
    pair "indent" (.text d.indent)] ++ d.fileNames s

end Dialect

end TestSkeleton
