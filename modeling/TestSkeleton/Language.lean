import TestSkeleton.Text.Basic

/-! The two source languages. -/

namespace TestSkeleton

inductive Language where
  | rust
  | v
  deriving DecidableEq, Repr

namespace Language

def name : Language → Text
  | rust => "rust".toList
  | v => "v".toList

def all : List Language := [rust, v]

/-- The language of that exact name. -/
def ofName? (name : Text) : Option Language := all.find? (·.name == name)

/-- The names of all languages, as messages list them. -/
def listed : Text := Text.join ", ".toList (all.map name)

end Language

end TestSkeleton
