/-! Tables that keep the order in which their keys were first entered. -/

namespace TestSkeleton

/-- Keys with their values, in the order of entry; each key is meant to occur once. -/
abbrev Table (κ α : Type) := List (κ × α)

namespace Table

variable {κ α : Type} [BEq κ]

/-- Enters a value. A key already present keeps its place. -/
def put (key : κ) (value : α) : Table κ α → Table κ α
  | [] => [(key, value)]
  | (k, v) :: rest => if k == key then (k, value) :: rest else (k, v) :: put key value rest

def get? (key : κ) (t : Table κ α) : Option α := t.lookup key

def has (key : κ) (t : Table κ α) : Bool := (t.lookup key).isSome

/-- Enters all pairs in order, so that a later value replaces an earlier one. -/
def putAll (t : Table κ α) (pairs : List (κ × α)) : Table κ α :=
  pairs.foldl (fun t (k, v) => put k v t) t

def ofList (pairs : List (κ × α)) : Table κ α := putAll [] pairs

def keys (t : Table κ α) : List κ := t.map (·.1)

end Table

end TestSkeleton
