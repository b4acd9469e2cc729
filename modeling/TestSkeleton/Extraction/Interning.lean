import TestSkeleton.Extraction.Rust
import TestSkeleton.Extraction.V
import TestSkeleton.Interner

/-! Extraction with a table of types.

A function that is kept has the types of its parameters and then that of its result go through the table
before the next function is looked at. The ways through a source are those of the plain extraction. -/

namespace TestSkeleton

open Text Signature

/-- What may add texts to the table of a session. -/
abbrev Interning := StateM Interner

namespace Interning

/-- The text as it stands in the table, which has it from then on. -/
def keep (t : Text) : Interning Text := modifyGet fun i => (t, i.intern t)

def keepParameter (p : Parameter) : Interning Parameter := do
  return { p with type := ← keep p.type }

/-- The function with its types in the table, those of the parameters before that of the result. -/
def keepFunction (f : Function) : Interning Function := do
  let parameters ← f.parameters.mapM keepParameter
  return { f with parameters, returns := ← keep f.returns }

end Interning

namespace Rust

mutual

/-- `collect`, with the types in the table. -/
def keepTree (policy : Policy) (file : Text) (scope : List Text) (owner : Option Text)
    (attributes : List Text) : Tree → Interning (List Function)
  | .node .function children =>
    let t := Tree.node .function children
    if attributes.any holdsTestAttribute || !policy.retains (nameOf t) (isPublic t) then return []
    else return [← Interning.keepFunction (functionOf file scope owner t)]
  | .node .implementation children =>
    let selfType := ((Tree.node .implementation children).childOf? .selfType).map Tree.text
    keepBody policy file scope (selfType.map baseName) children
  | .node .module children =>
    let t := Tree.node .module children
    if attributes.any holdsConfiguredTest || !(isPublic t || policy.includePrivate) then return []
    else keepBody policy file (scope ++ [nameOf t]) none children
  | _ => return []

/-- `collectBody`, with the types in the table. -/
def keepBody (policy : Policy) (file : Text) (scope : List Text) (owner : Option Text) :
    List Tree → Interning (List Function)
  | [] => return []
  | .node .declarations children :: _ => keepAll policy file scope owner [] children
  | _ :: rest => keepBody policy file scope owner rest

/-- `collectAll`, with the types in the table. -/
def keepAll (policy : Policy) (file : Text) (scope : List Text) (owner : Option Text)
    (attributes : List Text) : List Tree → Interning (List Function)
  | [] => return []
  | .comment _ :: rest => keepAll policy file scope owner attributes rest
  | .leaf _ :: rest => keepAll policy file scope owner [] rest
  | .node kind children :: rest => do
    let here ← keepTree policy file scope owner attributes (.node kind children)
    let behind ← keepAll policy file scope owner
      (if kind == .attribute then (Tree.node kind children).text :: attributes else []) rest
    return here ++ behind

end

/-- The signatures of a source that the policy keeps, with their types in the table. -/
def keepSource (policy : Policy) (file source : Text) : ExceptT ExtractionError Interning (List Function) := do
  let trees ← MonadExcept.ofExcept (parse source)
  keepAll policy file [] none [] trees

end Rust

namespace V

/-- The function of a header with its types in the table, when the policy keeps it and its parameters end. -/
def keepHeader (policy : Policy) (file : Text) : Header × Text → Interning (Option Function)
  | (h, rest) =>
    if policy.retains h.name h.isPublic then (functionOf? file h rest).mapM Interning.keepFunction
    else return none

/-- The signatures of a source that the policy keeps, with their types in the table. -/
def keepSource (policy : Policy) (file source : Text) : ExceptT ExtractionError Interning (List Function) := do
  let code := blank source
  match nestingFault? code with
  | some fault => throw fault
  | none =>
    let found : Interning (List (Option Function)) := (headers code).mapM (keepHeader policy file)
    return (← found).filterMap id

end V

end TestSkeleton
