import TestSkeleton.Text.Basic

/-! Signatures of functions as found in source files, independent of the language. -/

namespace TestSkeleton

structure Parameter where
  name : Text
  type : Text
  deriving DecidableEq, Repr

namespace Parameter

/-- Whether the parameter is the instance that a method is called on. -/
def isReceiver (p : Parameter) : Bool :=
  p.name == "self".toList && Text.endsWith "Self".toList p.type

end Parameter

/-- One function that was found. The owner is the type whose method it is, and the scope lists the
modules around it inside its file. -/
structure Function where
  name : Text
  parameters : List Parameter
  returns : Text
  file : Text
  isAsync : Bool := false
  owner : Option Text := none
  scope : List Text := []
  deriving DecidableEq, Repr

namespace Function

def receiver? (f : Function) : Option Parameter := f.parameters.find? Parameter.isReceiver

/-- The parameters that a call passes explicitly. -/
def arguments (f : Function) : List Parameter := f.parameters.filter (!·.isReceiver)

/-- The owner, unless its name is empty. -/
def namedOwner? (f : Function) : Option Text := f.owner.filter (· ≠ [])

def qualifiedName (f : Function) : Text :=
  Text.join "::".toList (f.scope ++ f.namedOwner?.toList ++ [f.name])

/-- All type texts of the signature: of the parameters in order, then of the result. -/
def types (f : Function) : List Text := f.parameters.map (·.type) ++ [f.returns]

end Function

end TestSkeleton
