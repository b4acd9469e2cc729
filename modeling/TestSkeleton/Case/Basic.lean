import TestSkeleton.Crate
import TestSkeleton.Function
import TestSkeleton.ModulePath
import TestSkeleton.Naming.Local
import TestSkeleton.Signature

/-! Test cases: what one test arranges, calls and asserts. -/

namespace TestSkeleton

open Text

/-- A local variable of a test with its literal. -/
structure Binding where
  name : Text
  value : Text
  isMutable : Bool := false
  deriving DecidableEq, Repr

/-- The test of one function. The receiver is the instance that a method is called on. -/
structure Case where
  function : Function
  path : Text
  module : ModulePath
  name : Text
  receiver : Option Binding
  bindings : List Binding
  call : Text
  assertion : Text
  deriving DecidableEq, Repr

/-- What tests are written in. Tests in Rust import the crate. -/
inductive Dialect where
  | rust (crate : Crate)
  | v
  deriving DecidableEq, Repr

/-- The project that tests are made for. -/
structure Target where
  root : Path
  policy : Policy
  dialect : Dialect

namespace Dialect

def language : Dialect → Language
  | rust _ => .rust
  | v => .v

end Dialect

namespace Case

/-- All locals of a test, the receiver first. -/
def locals (c : Case) : List Binding := c.receiver.toList ++ c.bindings

/-- The name of a function's test, before it is made unique in its file. -/
def testName (f : Function) : Text :=
  let owner := match f.namedOwner? with
    | some owner => Signature.toSnakeCase owner ++ ['_']
    | none => []
  "test_".toList ++ owner ++ f.name

def instanceName : Text := "instance".toList

/-- Whether a receiver is taken by mutable reference. -/
def takesMutably (receiver : Parameter) : Bool := startsWith "&mut".toList receiver.type

/-- Locals for the arguments of a function, given their literals. -/
def bind (f : Function) (literal : Parameter → Except LiteralError Text)
    (isMutable : Parameter → Bool) : Except LiteralError (List Binding) :=
  ((Naming.locals (f.arguments.map (·.name))).zip f.arguments).mapM fun (name, p) => do
    return ⟨name, ← literal p, isMutable p⟩

/-- The instance of a method: the override of its owner, else the literal of the owner's type. -/
def bindReceiver (policy : Policy) (f : Function)
    (literal : (owner : Text) → Except LiteralError Text) :
    Except LiteralError (Option Binding) := do
  match f.receiver?, f.namedOwner? with
  | some receiver, some owner =>
    let value ← match policy.typeMapping? owner with
      | some value => pure value
      | none => literal owner
    return some ⟨instanceName, value, takesMutably receiver⟩
  | _, _ => return none

/-- The arguments of a call. -/
def argumentList (arguments : List Text) : Text := ['('] ++ join ", ".toList arguments ++ [')']

/-- The call of a method on the instance. -/
def methodCall (f : Function) (arguments : List Text) : Text :=
  instanceName ++ ['.'] ++ f.name ++ argumentList arguments

/-- Whether a call goes through the instance. -/
def isMethodCall (f : Function) : Bool := f.receiver?.isSome && f.namedOwner?.isSome

end Case

namespace Target

/-- The file for the tests of a module. -/
def outputPath (t : Target) (module : ModulePath) : Path :=
  (t.root.append (Path.read t.policy.outputDir)).append
    (Path.read (ModulePath.testFileName t.dialect.language module))

/-- The module of a function: that of its file, and the modules around it inside. -/
def moduleOf (w : Workspace) (t : Target) (f : Function) : Except Failure ModulePath := do
  let file ← w.relativeText t.root (Path.read f.file)
  return ModulePath.ofFile t.dialect.language file ++ f.scope

end Target

end TestSkeleton
