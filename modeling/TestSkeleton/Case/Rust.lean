import TestSkeleton.Assertion.Rust
import TestSkeleton.Case.Basic

/-! Test cases of Rust functions. -/

namespace TestSkeleton.Rust

open Text

/-- Puts a text in the place of a word, wherever the word stands alone. The flag says whether the
character before belongs to a word. -/
def replaceWordFrom (word replacement : Text) : (behindWord : Bool) → (skip : Nat) → Text → Text
  | _, _, [] => []
  | _, skip + 1, c :: r => replaceWordFrom word replacement (isWord c) skip r
  | behindWord, 0, c :: r =>
    let found := match dropPrefix? word (c :: r) with
      | some rest => !behindWord && !rest.head?.any isWord
      | none => false
    if found then replacement ++ replaceWordFrom word replacement true (word.length - 1) r
    else c :: replaceWordFrom word replacement (isWord c) 0 r

/-- A type with the owner of its function in the place of `Self`. -/
def withOwner (f : Function) (type : Text) : Text :=
  match f.namedOwner? with
  | some owner => replaceWordFrom "Self".toList owner false 0 type
  | none => type

/-- The full path of a name in a module of the crate. -/
def qualified (crate : Crate) (module : ModulePath) (name : Text) : Text :=
  join "::".toList ([crate.name] ++ module ++ [name])

/-- The call of a function: on the instance, through its owner, or by its path. -/
def call (crate : Crate) (module : ModulePath) (f : Function) (arguments : List Binding) : Text :=
  let names := arguments.map (·.name)
  let call := if Case.isMethodCall f then Case.methodCall f names
    else match f.namedOwner? with
      | some owner =>
        qualified crate module owner ++ "::".toList ++ f.name ++ Case.argumentList names
      | none => qualified crate module f.name ++ Case.argumentList names
  if f.isAsync then call ++ ".await".toList else call

/-- The test case of a function in a module. -/
def caseOf (t : Target) (crate : Crate) (module : ModulePath) (f : Function) :
    Except LiteralError Case := do
  let literal := Rust.literal t.policy.typeMapping?
  let bindings ← Case.bind f (fun p => literal (withOwner f p.type)) fun _ => false
  let receiver ← Case.bindReceiver t.policy f fun owner => literal (qualified crate module owner)
  return {
    function := f
    path := (t.outputPath module).text
    module
    name := Case.testName f
    receiver
    bindings
    call := call crate module f bindings
    assertion := Rust.assertion (withOwner f f.returns) }

end TestSkeleton.Rust
