import TestSkeleton.Naming.Fresh
import TestSkeleton.Text.Class

/-! Local variables of a test: one for each argument of the call. -/

namespace TestSkeleton.Naming

open Text

/-- The names that a test uses for its own variables, and the blank one. -/
def reservedLocals : List Text := ["result", "instance", "self", "_"].map String.toList

/-- Whether a name stands for an argument that has none: `arg` and a number. -/
def isPlaceholder (name : Text) : Bool :=
  match dropPrefix? "arg".toList name with
  | some digits => !digits.isEmpty && digits.all isDigit
  | none => false

/-- Whether the declared name of an argument can serve as its local variable. -/
def isUsable (names : List Text) (name : Text) : Bool :=
  isIdentifier name && !reservedLocals.contains name && names.count name == 1 &&
    !isPlaceholder name

def numbered (index : Nat) : Text := "param_".toList ++ ofNat index

/-- Locals for the arguments from number `index` on. -/
def localsFrom (names taken : List Text) : Nat → List Text → List Text
  | _, [] => []
  | index, name :: rest =>
    let base := if isUsable names name then name else numbered index
    let chosen := fresh taken (fun k => base ++ List.replicate k '_') 0
    chosen :: localsFrom names (chosen :: taken) (index + 1) rest

/-- A local for each argument: its declared name where that is usable, else its number. A name that
an earlier local took gets underscores. -/
def locals (names : List Text) : List Text := localsFrom names [] 0 names

end TestSkeleton.Naming
