import Mathlib.Data.List.Induction
import TestSkeleton.Naming.Unique
import TestSkeleton.Proofs.Naming.Fresh

/-! Names are made unique from left to right, so that a further name changes none before it.

Main statement: the names that are given differ from each other, and each is the wanted name itself or that name
with the first number behind it that makes it new. -/

namespace TestSkeleton.Naming

open Text

/-- The name that a further test gets behind others. -/
def uniqueAfter (names : List Text) (name : Text) : Text :=
  fresh (unique names).reverse (suffixed name) (names.count name + 1)

theorem uniqueFrom_append (seen used names more : List Text) :
    uniqueFrom seen used (names ++ more) =
      uniqueFrom seen used names ++
        uniqueFrom (names.reverse ++ seen) ((uniqueFrom seen used names).reverse ++ used) more := by
  induction names generalizing seen used with
  | nil => rfl
  | cons name names ih => simp [uniqueFrom, ih]

theorem unique_append_singleton (names : List Text) (name : Text) :
    unique (names ++ [name]) = unique names ++ [uniqueAfter names name] := by
  simp [unique, uniqueFrom_append, uniqueFrom, uniqueAfter, List.count_reverse]

theorem uniqueAfter_nil (name : Text) : uniqueAfter [] name = name := rfl

theorem length_uniqueFrom (seen used names : List Text) :
    (uniqueFrom seen used names).length = names.length := by
  induction names generalizing seen used with
  | nil => rfl
  | cons name names ih => simp [uniqueFrom, ih]

theorem length_unique (names : List Text) : (unique names).length = names.length :=
  length_uniqueFrom [] [] names

theorem ofNat_injective {m n : Nat} (same : ofNat m = ofNat n) : m = n := by
  have read : Nat.ofDigitChars 10 (ofNat m) 0 = Nat.ofDigitChars 10 (ofNat n) 0 :=
    congrArg (fun digits => Nat.ofDigitChars 10 digits 0) same
  simpa [ofNat] using read

/-- From one on, the numbers of a name tell its forms apart: the first stands without one. -/
theorem suffixed_injective (name : Text) {i j : Nat} (left : 1 ≤ i) (right : 1 ≤ j)
    (same : suffixed name i = suffixed name j) : i = j := by
  unfold suffixed at same
  split at same <;> split at same
  · omega
  · simp at same
  · simp at same
  · rw [List.append_cancel_left_eq] at same
    exact ofNat_injective same

/-- The search for the name of a further test ends at the first free number. -/
theorem exists_uniqueAfter (names : List Text) (name : Text) :
    ∃ k, IsFirstFree (unique names) (suffixed name) (names.count name + 1) k ∧
      uniqueAfter names name = suffixed name k := by
  have different : ∀ i j, names.count name + 1 ≤ i → names.count name + 1 ≤ j →
      suffixed name i = suffixed name j → i = j := by
    intro i j low high same
    apply suffixed_injective name _ _ same <;> omega
  obtain ⟨k, ⟨behind, free, before⟩, found⟩ := exists_isFirstFree (unique names).reverse different
  simp only [List.mem_reverse] at free before
  exact ⟨k, ⟨behind, free, before⟩, found⟩

theorem uniqueAfter_not_mem (names : List Text) (name : Text) : uniqueAfter names name ∉ unique names := by
  obtain ⟨k, ⟨-, free, -⟩, found⟩ := exists_uniqueAfter names name
  rw [found]
  exact free

/-- A name that is new, and that no name before it was turned into, stays. -/
theorem uniqueAfter_eq_self {names : List Text} {name : Text} (new : name ∉ names)
    (free : name ∉ unique names) : uniqueAfter names name = name := by
  have first : suffixed name (names.count name + 1) = name := by
    rw [List.count_eq_zero_of_not_mem new]
    rfl
  have start : suffixed name (names.count name + 1) ∉ (unique names).reverse := by
    rw [first, List.mem_reverse]
    exact free
  rw [uniqueAfter, fresh_of_not_mem start, first]

theorem nodup_unique (names : List Text) : (unique names).Nodup := by
  induction names using List.reverseRecOn with
  | nil => exact List.nodup_nil
  | append_singleton names name ih =>
    rw [unique_append_singleton, ← List.concat_eq_append]
    exact ih.concat (uniqueAfter_not_mem names name)

/-- Names that differ already stay. -/
theorem unique_eq_self {names : List Text} (distinct : names.Nodup) : unique names = names := by
  induction names using List.reverseRecOn with
  | nil => rfl
  | append_singleton names name ih =>
    obtain ⟨front, -, apart⟩ := List.nodup_append.mp distinct
    have new : name ∉ names := fun member => apart name member name List.mem_cons_self rfl
    have same := ih front
    have free : name ∉ unique names := by rwa [same]
    rw [unique_append_singleton, uniqueAfter_eq_self new free, same]

theorem unique_take (names : List Text) (n : Nat) : unique (names.take n) = (unique names).take n := by
  rcases Nat.le_total n names.length with short | long
  · have cut : unique names = unique (names.take n) ++
        uniqueFrom (names.take n).reverse (unique (names.take n)).reverse (names.drop n) := by
      have append := uniqueFrom_append [] [] (names.take n) (names.drop n)
      rwa [List.take_append_drop, List.append_nil, List.append_nil] at append
    have length : (unique (names.take n)).length = n := by
      rw [length_unique, List.length_take, Nat.min_eq_left short]
    rw [cut, List.take_left' length]
  · rw [List.take_of_length_le long, List.take_of_length_le (by rwa [length_unique])]

/-- A name is given by what stands before it alone. -/
theorem getElem?_unique {names : List Text} {i : Nat} {name : Text} (wanted : names[i]? = some name) :
    (unique names)[i]? = some (uniqueAfter (names.take i) name) := by
  obtain ⟨inside, rfl⟩ := List.getElem?_eq_some_iff.mp wanted
  have length : (unique (names.take i)).length = i := by
    rw [length_unique, List.length_take, Nat.min_eq_left (Nat.le_of_lt inside)]
  calc (unique names)[i]?
      = ((unique names).take (i + 1))[i]? := (List.getElem?_take_of_lt (Nat.lt_succ_self i)).symm
    _ = (unique (names.take i ++ [names[i]]))[i]? := by rw [← unique_take, List.take_append_getElem inside]
    _ = some (uniqueAfter (names.take i) names[i]) := by
      rw [unique_append_singleton, List.getElem?_append_right (by omega), length, Nat.sub_self]
      rfl

/-- The search for each name ends at the first free number behind the names before it, so that all names are
given, and given different from each other: a name as it is wanted, or with a number from two on. The first
name of its kind stays unless it is taken, names that differ already stay, and further names change nothing. -/
theorem unique_tells_apart (names : List Text) :
    (unique names).length = names.length ∧
    (unique names).Nodup ∧
    (∀ (i : Nat) (name : Text), names[i]? = some name →
      ∃ k, IsFirstFree ((unique names).take i) (suffixed name) ((names.take i).count name + 1) k ∧
        (unique names)[i]? = some (suffixed name k)) ∧
    (∀ (i : Nat) (name : Text), names[i]? = some name →
      (unique names)[i]? = some name ∨ ∃ k ≥ 2, (unique names)[i]? = some (name ++ ['_'] ++ ofNat k)) ∧
    (∀ (i : Nat) (name : Text), names[i]? = some name → name ∉ names.take i →
      name ∉ (unique names).take i → (unique names)[i]? = some name) ∧
    (names.Nodup → unique names = names) ∧
    ∀ n, unique (names.take n) = (unique names).take n := by
  have searched : ∀ (i : Nat) (name : Text), names[i]? = some name →
      ∃ k, IsFirstFree ((unique names).take i) (suffixed name) ((names.take i).count name + 1) k ∧
        (unique names)[i]? = some (suffixed name k) := by
    intro i name wanted
    obtain ⟨k, free, found⟩ := exists_uniqueAfter (names.take i) name
    rw [unique_take] at free
    exact ⟨k, free, by rw [getElem?_unique wanted, found]⟩
  refine ⟨length_unique names, nodup_unique names, searched, ?_, ?_, unique_eq_self, unique_take names⟩
  · intro i name wanted
    obtain ⟨k, -, given⟩ := searched i name wanted
    rw [given]
    rcases Nat.lt_or_ge 1 k with later | first
    · right
      exact ⟨k, later, by rw [suffixed, if_neg (by omega)]⟩
    · left
      rw [suffixed, if_pos first]
  · intro i name wanted new free
    rw [← unique_take] at free
    rw [getElem?_unique wanted, uniqueAfter_eq_self new free]

/-- Two names in pairs, the second of which the first one is turned into. -/
def clashing : List Text := ["run", "run", "run_2", "run_2"].map String.toList

theorem unique_clashing :
    unique clashing = ["run", "run_2", "run_2_2", "run_2_3"].map String.toList ∧
    (clashing[3]? = some "run_2".toList ∧
      ∃ k, IsFirstFree ((unique clashing).take 3) (suffixed "run_2".toList) 2 k ∧
        (unique clashing)[3]? = some (suffixed "run_2".toList k)) ∧
    ("run".toList ∉ clashing.take 0 ∧ (unique clashing)[0]? = some "run".toList) ∧
    ((clashing.drop 1).take 2).Nodup ∧
      unique ((clashing.drop 1).take 2) = (clashing.drop 1).take 2 := by
  have third : clashing[3]? = some "run_2".toList := by decide
  have distinct : ((clashing.drop 1).take 2).Nodup := by decide
  obtain ⟨-, -, searched, -, kept, -, -⟩ := unique_tells_apart clashing
  obtain ⟨-, -, -, -, -, unchanged, -⟩ := unique_tells_apart ((clashing.drop 1).take 2)
  have first := kept 0 "run".toList (by decide) (by decide) (by decide)
  exact ⟨by decide, ⟨third, searched 3 _ third⟩, ⟨by decide, first⟩, distinct, unchanged distinct⟩

end TestSkeleton.Naming
