import TestSkeleton.Naming.Fresh

/-! Names made different by numbers. -/

namespace TestSkeleton.Naming

open Text

/-- A name as such, or with its number when it is not the first of its kind. -/
def suffixed (name : Text) (number : Nat) : Text :=
  if number ≤ 1 then name else name ++ ['_'] ++ ofNat number

/-- Unique names for the rest of a list, given the names before it and the ones chosen for them. -/
def uniqueFrom (seen used : List Text) : List Text → List Text
  | [] => []
  | name :: rest =>
    let chosen := fresh used (suffixed name) (seen.count name + 1)
    chosen :: uniqueFrom (name :: seen) (chosen :: used) rest

/-- Gives a repeated name the suffix `_2`, `_3` and so on, in order of appearance, and passes over
names that are in use. -/
def unique (names : List Text) : List Text := uniqueFrom [] [] names

end TestSkeleton.Naming
