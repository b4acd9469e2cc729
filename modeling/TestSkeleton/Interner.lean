import TestSkeleton.Function

/-! The type texts seen in one session, each kept once. -/

namespace TestSkeleton

structure Interner where
  texts : List Text := []
  deriving DecidableEq, Repr

namespace Interner

def contains (i : Interner) (t : Text) : Bool := i.texts.contains t

def size (i : Interner) : Nat := i.texts.length

/-- Keeps a text that was not seen before. -/
def intern (i : Interner) (t : Text) : Interner :=
  if i.contains t then i else ⟨i.texts ++ [t]⟩

/-- Keeps every type text of the functions, in order. -/
def internAll (i : Interner) (fs : List Function) : Interner :=
  (fs.flatMap Function.types).foldl intern i

end Interner

end TestSkeleton
