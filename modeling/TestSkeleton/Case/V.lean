import TestSkeleton.Assertion.V
import TestSkeleton.Case.Basic

/-! Test cases of V functions. -/

namespace TestSkeleton.V

open Text

def mutMark : Text := "mut ".toList

def isMutable (p : Parameter) : Bool := startsWith mutMark p.type

/-- The last name of a module with a dot, in front of the names that it exports. -/
def qualifier (module : ModulePath) : Text :=
  match module.getLast? with
  | some last => last ++ ['.']
  | none => []

/-- A local as it is passed to a call. -/
def passed (b : Binding) : Text := if b.isMutable then mutMark ++ b.name else b.name

/-- Whether a function can return an error or no value. -/
def mayFail (f : Function) : Bool := f.returns.head?.any fun c => c == '!' || c == '?'

/-- The call of a function: on the instance or by its module. -/
def call (module : ModulePath) (f : Function) (arguments : List Binding) : Text :=
  let names := arguments.map passed
  let call := if Case.isMethodCall f then Case.methodCall f names
    else qualifier module ++ f.name ++ Case.argumentList names
  if mayFail f then call ++ " or \x7b panic(err) \x7d".toList else call

/-- The test case of a function in a module. -/
def caseOf (t : Target) (module : ModulePath) (f : Function) : Except LiteralError Case := do
  let literal := V.literal t.policy.typeMapping?
  let bindings ← Case.bind f (fun p => literal p.type) isMutable
  let receiver ← Case.bindReceiver t.policy f fun owner => literal (qualifier module ++ owner)
  return {
    function := f
    path := (t.outputPath module).text
    module
    name := Case.testName f
    receiver
    bindings
    call := call module f bindings
    assertion := V.assertion f.returns }

end TestSkeleton.V
