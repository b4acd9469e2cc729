import TestSkeleton.Generation

/-! Work units: what the pieces of a list hold, and that the outcomes of a generation do not depend on
them. -/

namespace TestSkeleton.GenerationRun

section Units

variable {α : Type} {size : Nat}

theorem flatten_unitsWithin (filled : 0 < size) {steps : Nat} {xs : List α}
    (enough : xs.length ≤ steps) : (unitsWithin size steps xs).flatten = xs := by
  induction steps generalizing xs with
  | zero =>
    rw [List.eq_nil_of_length_eq_zero (Nat.le_zero.mp enough)]
    rfl
  | succ steps ih =>
    cases xs with
    | nil => rfl
    | cons x xs =>
      have shorter : ((x :: xs).drop size).length ≤ steps := by
        rw [List.length_drop]
        omega
      rw [unitsWithin, List.flatten_cons, ih shorter, List.take_append_drop]
      simp

/-- The pieces in their order are the list. -/
theorem flatten_unitsOf (filled : 0 < size) (xs : List α) : (unitsOf size xs).flatten = xs :=
  flatten_unitsWithin filled (Nat.le_refl _)

theorem unitsOf_ne_nil {xs : List α} (filled : xs ≠ []) : unitsOf size xs ≠ [] := by
  cases xs with
  | nil => exact absurd rfl filled
  | cons x xs => simp [unitsOf, unitsWithin]

end Units

/-- The functions that the policy keeps, in their order. -/
def kept (t : Target) (functions : List Function) : List Function :=
  functions.filter fun f => !t.policy.skipsFunction f.name

theorem flatMap_attempt (w : Workspace) (t : Target) (units : List (List Function)) :
    units.flatMap (attempt w t) = attempt w t units.flatten := by
  rw [List.flatMap_def, attempt, List.map_flatten]
  rfl

theorem unitsOf_of_split? {policy : Policy} {functions : List Function}
    {units : List (List Function)} (split : split? policy functions = some units) :
    units = unitsOf policy.parallelChunkSize functions ∧ functions ≠ [] := by
  unfold split? at split
  split at split
  · rename_i long
    refine ⟨(Option.some.inj split).symm, ?_⟩
    rintro rfl
    simp at long
  · cases split

theorem flatten_of_split? {policy : Policy} {functions : List Function}
    {units : List (List Function)} (split : split? policy functions = some units) :
    units.flatten = functions := by
  rw [(unitsOf_of_split? split).1, flatten_unitsOf policy.chunk_pos]

/-- What is made of the outcomes of functions. -/
def ofOutcomes (w : Workspace) (t : Target) (functions : List Function)
    (outcomes : List CaseOutcome) : GenerationRun :=
  let (rendered, failure) := renderAll w t (group (outcomes.filterMap CaseOutcome.case?))
  { target := t, functions, units := split? t.policy functions, outcomes, rendered, failure }

/-- Work units or not, every kept function is attempted once and in order. -/
theorem ofFunctions_eq (w : Workspace) (t : Target) (functions : List Function) :
    ofFunctions w t functions =
      ofOutcomes w t (kept t functions) (attempt w t (kept t functions)) := by
  simp only [ofFunctions, ofOutcomes, kept]
  split
  · rename_i units split
    rw [flatMap_attempt, flatten_of_split? split]
  · rfl

end TestSkeleton.GenerationRun
