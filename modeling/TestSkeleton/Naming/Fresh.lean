import TestSkeleton.Text.Basic

/-! The first name of a sequence that is not taken yet. -/

namespace TestSkeleton.Naming

/-- Passes over taken candidates, from number `k` on. -/
def freeNumber (taken : List Text) (candidate : Nat → Text) : (tries k : Nat) → Nat
  | 0, k => k
  | tries + 1, k =>
    if candidate k ∈ taken then freeNumber taken candidate tries (k + 1) else k

/-- The first candidate from number `start` on that is not taken. Of different candidates only as
many can be taken as there are taken names. -/
def fresh (taken : List Text) (candidate : Nat → Text) (start : Nat) : Text :=
  candidate (freeNumber taken candidate taken.length start)

end TestSkeleton.Naming
