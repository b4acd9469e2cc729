import Mathlib.Data.List.Nodup
import Mathlib.Data.List.Perm.Subperm
import TestSkeleton.Naming.Fresh

/-! The search for a name that is not taken ends at the first free one. -/

namespace TestSkeleton.Naming

/-- The number that a search ends at: all before it are taken, and it is free unless the search gave up. -/
theorem freeNumber_spec (taken : List Text) (candidate : Nat → Text) (tries k : Nat) :
    k ≤ freeNumber taken candidate tries k ∧
      (∀ j, k ≤ j → j < freeNumber taken candidate tries k → candidate j ∈ taken) ∧
      (candidate (freeNumber taken candidate tries k) ∈ taken →
        freeNumber taken candidate tries k = k + tries) := by
  induction tries generalizing k with
  | zero => exact ⟨Nat.le_refl k, fun j low high => absurd high (Nat.not_lt.mpr low), fun _ => rfl⟩
  | succ tries ih =>
    obtain ⟨behind, before, ended⟩ := ih (k + 1)
    rw [freeNumber]
    split
    · rename_i here
      refine ⟨by omega, fun j low high => ?_, fun full => by rw [ended full]; omega⟩
      rcases Nat.eq_or_lt_of_le low with rfl | later
      · exact here
      · exact before j later high
    · rename_i free
      exact ⟨Nat.le_refl k, fun j low high => absurd high (Nat.not_lt.mpr low), fun full => absurd full free⟩

section Distinct

variable (taken : List Text) {candidate : Nat → Text} {start : Nat}

/-- Of different candidates one more than the taken names cannot all be taken. -/
theorem fresh_not_mem (different : ∀ i j, start ≤ i → start ≤ j → candidate i = candidate j → i = j) :
    fresh taken candidate start ∉ taken := by
  intro full
  obtain ⟨-, before, ended⟩ := freeNumber_spec taken candidate taken.length start
  have last := ended full
  have all : ∀ j ∈ List.range (taken.length + 1), candidate (start + j) ∈ taken := by
    intro j inside
    rw [List.mem_range] at inside
    rcases Nat.eq_or_lt_of_le (Nat.le_of_lt_succ inside) with rfl | earlier
    · rw [fresh, last] at full
      exact full
    · exact before (start + j) (by omega) (by omega)
  have distinct : ((List.range (taken.length + 1)).map fun j => candidate (start + j)).Nodup := by
    apply List.nodup_range.map
    intro i j same
    exact Nat.add_left_cancel (different _ _ (by omega) (by omega) same)
  have within : ((List.range (taken.length + 1)).map fun j => candidate (start + j)) ⊆ taken := by
    intro name member
    obtain ⟨j, inside, rfl⟩ := List.mem_map.mp member
    exact all j inside
  have long := (distinct.subperm within).length_le
  rw [List.length_map, List.length_range] at long
  omega

/-- A number is the first one, from a start on, whose candidate is not taken. -/
def IsFirstFree (taken : List Text) (candidate : Nat → Text) (start k : Nat) : Prop :=
  start ≤ k ∧ candidate k ∉ taken ∧ ∀ j, start ≤ j → j < k → candidate j ∈ taken

variable {taken} in
theorem IsFirstFree.unique {k l : Nat} (one : IsFirstFree taken candidate start k)
    (other : IsFirstFree taken candidate start l) : k = l := by
  rcases Nat.lt_trichotomy k l with earlier | same | later
  · exact absurd (other.2.2 k one.1 earlier) one.2.1
  · exact same
  · exact absurd (one.2.2 l other.1 later) other.2.1

variable {taken} in
/-- A further taken name changes nothing, unless it is the one that was found. -/
theorem IsFirstFree.concat {k : Nat} {name : Text} (first : IsFirstFree taken candidate start k)
    (other : candidate k ≠ name) : IsFirstFree (taken ++ [name]) candidate start k := by
  obtain ⟨behind, free, before⟩ := first
  refine ⟨behind, ?_, fun j low high => List.mem_append_left _ (before j low high)⟩
  rw [List.mem_append, List.mem_singleton, not_or]
  exact ⟨free, other⟩

/-- The search for different candidates does not give up. -/
theorem exists_isFirstFree
    (different : ∀ i j, start ≤ i → start ≤ j → candidate i = candidate j → i = j) :
    ∃ k, IsFirstFree taken candidate start k ∧ fresh taken candidate start = candidate k := by
  obtain ⟨behind, before, -⟩ := freeNumber_spec taken candidate taken.length start
  exact ⟨_, ⟨behind, fresh_not_mem taken different, before⟩, rfl⟩

end Distinct

theorem fresh_of_not_mem {taken : List Text} {candidate : Nat → Text} {start : Nat}
    (free : candidate start ∉ taken) : fresh taken candidate start = candidate start := by
  rw [fresh]
  cases taken.length with
  | zero => rfl
  | succ tries => rw [freeNumber, if_neg free]

end TestSkeleton.Naming
