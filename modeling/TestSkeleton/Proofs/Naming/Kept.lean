import TestSkeleton.Proofs.Naming.Local
import TestSkeleton.Proofs.Naming.Unique
import TestSkeleton.Proofs.Text.Basic

/-! Which arguments keep their declared names as locals.

An argument without a usable name gets a numbered one, and a declared name that comes later can be the same text.
Then the later argument gives way. Main statement: this is the only way for a usable name to be lost, and it is
decided by the names before it alone. -/

namespace TestSkeleton.Naming

open Text

theorem underscored_numbered_injective {i j k l : Nat}
    (same : underscored (numbered i) k = underscored (numbered j) l) : i = j ∧ k = l := by
  have digit : ∀ n, ∀ c ∈ ofNat n, c.isDigit = true :=
    fun _ _ => Nat.isDigit_of_mem_toDigits (by decide) (by decide)
  have stop : ∀ n, ∀ c ∈ (List.replicate n '_').head?, c.isDigit = false := by
    intro n c head
    rw [List.eq_of_mem_replicate (List.mem_of_mem_head? head)]
    decide
  have parted : ∀ n m, underscored (numbered n) m = "param_".toList ++ (ofNat n ++ List.replicate m '_') :=
    fun _ _ => List.append_assoc _ _ _
  rw [parted, parted] at same
  obtain ⟨numbers, runs⟩ := run_unique (digit i) (digit j) (stop k) (stop l) (List.append_cancel_left same)
  have lengths := congrArg List.length runs
  rw [List.length_replicate, List.length_replicate] at lengths
  exact ⟨ofNat_injective numbers, lengths⟩

section Before

variable (names : List Text) (i : Nat)

/-- The usable names among the first `i`. -/
def usableBefore : List Text := (names.take i).filter (isUsable names)

/-- Whether the argument at a place has no usable name. -/
def IsUnnamed (j : Nat) : Prop := ∃ name ∈ names[j]?, isUsable names name = false

/-- The name that the argument at a place goes by when it has no usable one: its number with the fewest
underscores that no usable name among the first `i` has. -/
def standIn (j : Nat) : Text := fresh (usableBefore names i) (underscored (numbered j)) 0

/-- Whether a text is the name of one of the first `i` arguments that has no usable one. -/
def StandsIn (name : Text) : Prop := ∃ j < i, IsUnnamed names j ∧ name = standIn names i j

theorem exists_standIn (j : Nat) : ∃ k,
    IsFirstFree (usableBefore names i) (underscored (numbered j)) 0 k ∧
      standIn names i j = underscored (numbered j) k :=
  exists_isFirstFree _ fun _ _ _ _ => underscored_injective

variable {names i}

theorem standIn_eq {j k : Nat} (first : IsFirstFree (usableBefore names i) (underscored (numbered j)) 0 k) :
    standIn names i j = underscored (numbered j) k := by
  obtain ⟨l, other, same⟩ := exists_standIn names i j
  rw [same, other.unique first]

theorem standIn_injective {j l : Nat} (same : standIn names i j = standIn names i l) : j = l := by
  obtain ⟨k, -, left⟩ := exists_standIn names i j
  obtain ⟨m, -, right⟩ := exists_standIn names i l
  rw [left, right] at same
  exact (underscored_numbered_injective same).1

/-- A numbered name stands in for its own argument only. -/
theorem not_standsIn_numbered (k : Nat) : ¬StandsIn names i (underscored (numbered i) k) := by
  rintro ⟨j, earlier, -, same⟩
  obtain ⟨l, -, found⟩ := exists_standIn names i j
  rw [found] at same
  exact absurd (underscored_numbered_injective same).1 (Nat.ne_of_gt earlier)

variable {name : Text} (declared : names[i]? = some name)

include declared in
theorem usableBefore_succ : usableBefore names (i + 1) =
    usableBefore names i ++ if isUsable names name then [name] else [] := by
  obtain ⟨inside, rfl⟩ := List.getElem?_eq_some_iff.mp declared
  rw [usableBefore, List.take_succ_eq_append_getElem inside, List.filter_append, usableBefore, List.filter_singleton]
  cases isUsable names names[i] <;> rfl

include declared in
/-- A usable name is declared once, so not before. -/
theorem not_mem_usableBefore (usable : isUsable names name = true) : name ∉ usableBefore names i := by
  intro before
  obtain ⟨inside, rfl⟩ := List.getElem?_eq_some_iff.mp declared
  have front : names[i] ∈ names.take i := (List.mem_filter.mp before).1
  have twice : 2 ≤ (names.take (i + 1)).count names[i] := by
    rw [List.take_succ_eq_append_getElem inside, List.count_append, List.count_singleton_self]
    have once := List.one_le_count_iff.mpr front
    omega
  have all := (List.take_sublist (i + 1) names).count_le names[i]
  have once := (isUsable_iff.mp usable).2.2.1
  omega

include declared in
theorem isUnnamed_succ {j : Nat} (usable : isUsable names name = true) :
    j < i + 1 ∧ IsUnnamed names j ↔ j < i ∧ IsUnnamed names j := by
  refine ⟨fun ⟨low, unnamed⟩ => ⟨?_, unnamed⟩, fun ⟨low, unnamed⟩ => ⟨Nat.lt_succ_of_lt low, unnamed⟩⟩
  refine Nat.lt_of_le_of_ne (Nat.le_of_lt_succ low) ?_
  rintro rfl
  obtain ⟨other, here, unusable⟩ := unnamed
  rw [Option.some.inj (here.symm.trans declared), usable] at unusable
  cases unusable

include declared in
/-- A further usable name leaves every name that it differs from. -/
theorem standIn_succ_of_ne {j : Nat} (usable : isUsable names name = true) (other : standIn names i j ≠ name) :
    standIn names (i + 1) j = standIn names i j := by
  obtain ⟨k, first, found⟩ := exists_standIn names i j
  rw [found] at other ⊢
  apply standIn_eq
  rw [usableBefore_succ declared, if_pos usable]
  exact first.concat other

end Before

/-- The locals of the first arguments are their usable names, and the names that stand in for the others. -/
def Splits (names : List Text) (i : Nat) : Prop :=
  ∀ name, name ∈ (locals names).take i ↔ name ∈ usableBefore names i ∨ StandsIn names i name

section Step

variable {names : List Text} {i : Nat} {name : Text}

/-- A usable name that another argument goes by already gets the next underscores that are free. With the name
itself taken as well, these are what the other argument would go by. -/
theorem standIn_succ_of_eq {j k : Nat} (split : Splits names i) (declared : names[i]? = some name)
    (usable : isUsable names name = true) (earlier : j < i) (unnamed : IsUnnamed names j)
    (same : standIn names i j = name) (chosen : IsFirstFree ((locals names).take i) (underscored name) 0 k) :
    standIn names (i + 1) j = underscored name k := by
  obtain ⟨m, first, found⟩ := exists_standIn names i j
  obtain rfl : name = underscored (numbered j) m := same.symm.trans found
  have taken : underscored (numbered j) m ∈ (locals names).take i :=
    (split _).mpr (.inr ⟨j, earlier, unnamed, same.symm⟩)
  have free : underscored (numbered j) (m + k) ∉ (locals names).take i :=
    underscored_underscored (numbered j) m k ▸ chosen.2.1
  rw [underscored_underscored]
  apply standIn_eq
  rw [usableBefore_succ declared, if_pos usable]
  refine ⟨Nat.zero_le _, ?_, fun l _ low => ?_⟩
  · rw [List.mem_append, List.mem_singleton, not_or]
    exact ⟨fun before => free ((split _).mpr (.inl before)), fun again => free (again ▸ taken)⟩
  · rcases Nat.lt_trichotomy l m with below | rfl | above
    · exact List.mem_append_left _ (first.2.2 l (Nat.zero_le l) below)
    · exact List.mem_append_right _ (List.mem_singleton.mpr rfl)
    · have between := chosen.2.2 (l - m) (Nat.zero_le _) (by omega)
      rw [underscored_underscored, Nat.add_sub_of_le (Nat.le_of_lt above)] at between
      rcases (split _).mp between with before | ⟨j', -, -, stands⟩
      · exact List.mem_append_left _ before
      · obtain ⟨m', first', found'⟩ := exists_standIn names i j'
        obtain ⟨rfl, rfl⟩ := underscored_numbered_injective (stands.trans found')
        exact absurd (first.unique first') (Nat.ne_of_lt above)

/-- An argument without a usable name goes by its number. -/
theorem splits_succ_of_unnamed {k : Nat} (split : Splits names i) (declared : names[i]? = some name)
    (unusable : isUsable names name = false)
    (chosen : IsFirstFree ((locals names).take i) (underscored (numbered i)) 0 k)
    (grown : (locals names).take (i + 1) = (locals names).take i ++ [underscored (numbered i) k]) :
    Splits names (i + 1) := by
  have before : usableBefore names (i + 1) = usableBefore names i := by
    rw [usableBefore_succ declared, if_neg (by simp [unusable]), List.append_nil]
  have stands : ∀ j, standIn names (i + 1) j = standIn names i j := fun j => by rw [standIn, before, standIn]
  have family : ∀ l, underscored (numbered i) l ∈ (locals names).take i ↔
      underscored (numbered i) l ∈ usableBefore names i := fun l =>
    (split _).trans (or_iff_left (not_standsIn_numbered l))
  have here : standIn names i i = underscored (numbered i) k := by
    refine standIn_eq ⟨chosen.1, fun member => chosen.2.1 ((family k).mpr member), fun l low high => ?_⟩
    exact (family l).mp (chosen.2.2 l low high)
  intro text
  rw [grown, List.mem_append, List.mem_singleton, split, before, or_assoc, StandsIn, StandsIn]
  refine or_congr_right ?_
  simp only [stands]
  constructor
  · rintro (⟨j, earlier, unnamed, rfl⟩ | rfl)
    · exact ⟨j, Nat.lt_succ_of_lt earlier, unnamed, rfl⟩
    · exact ⟨i, Nat.lt_succ_self i, ⟨name, declared, unusable⟩, here.symm⟩
  · rintro ⟨j, earlier, unnamed, rfl⟩
    rcases Nat.eq_or_lt_of_le (Nat.le_of_lt_succ earlier) with rfl | before
    · exact .inr here
    · exact .inl ⟨j, before, unnamed, rfl⟩

/-- An argument with a usable name goes by it, or gives way to one that goes by this name already. -/
theorem splits_succ_of_usable {k : Nat} (split : Splits names i) (declared : names[i]? = some name)
    (usable : isUsable names name = true)
    (chosen : IsFirstFree ((locals names).take i) (underscored name) 0 k)
    (grown : (locals names).take (i + 1) = (locals names).take i ++ [underscored name k]) :
    Splits names (i + 1) := by
  intro text
  rw [grown, List.mem_append, List.mem_singleton, split, usableBefore_succ declared, if_pos usable,
    List.mem_append, List.mem_singleton]
  have stands : StandsIn names (i + 1) text ↔
      ∃ j < i, IsUnnamed names j ∧ text = standIn names (i + 1) j := by
    simp only [StandsIn, ← and_assoc, isUnnamed_succ declared usable]
  rw [stands]
  by_cases given : StandsIn names i name
  · obtain ⟨j, earlier, unnamed, same⟩ := given
    have moved := standIn_succ_of_eq split declared usable earlier unnamed same.symm chosen
    have others : ∀ l, l ≠ j → standIn names (i + 1) l = standIn names i l := fun l apart =>
      standIn_succ_of_ne declared usable fun again => apart (standIn_injective (again.trans same))
    constructor
    · rintro ((before | ⟨l, low, unusable, rfl⟩) | rfl)
      · exact .inl (.inl before)
      · by_cases here : l = j
        · exact .inl (.inr (by rw [here, same]))
        · exact .inr ⟨l, low, unusable, (others l here).symm⟩
      · exact .inr ⟨j, earlier, unnamed, moved.symm⟩
    · rintro ((before | rfl) | ⟨l, low, unusable, rfl⟩)
      · exact .inl (.inl before)
      · exact .inl (.inr ⟨j, earlier, unnamed, same⟩)
      · by_cases here : l = j
        · exact .inr (by rw [here, moved])
        · exact .inl (.inr ⟨l, low, unusable, others l here⟩)
  · have free : name ∉ (locals names).take i := fun member =>
      ((split name).mp member).elim (not_mem_usableBefore declared usable) given
    have first : IsFirstFree ((locals names).take i) (underscored name) 0 0 :=
      ⟨Nat.le_refl 0, by rwa [underscored_zero], fun l _ low => absurd low (Nat.not_lt_zero l)⟩
    obtain rfl := chosen.unique first
    have kept : ∀ j, j < i ∧ IsUnnamed names j → standIn names (i + 1) j = standIn names i j :=
      fun j ⟨low, unnamed⟩ => standIn_succ_of_ne declared usable fun same => given ⟨j, low, unnamed, same.symm⟩
    have unmoved : (∃ j < i, IsUnnamed names j ∧ text = standIn names (i + 1) j) ↔ StandsIn names i text := by
      refine exists_congr fun j => ?_
      rw [← and_assoc, ← and_assoc]
      exact and_congr_right fun here => by rw [kept j here]
    rw [unmoved, underscored_zero, or_right_comm]

end Step

theorem splits_locals {names : List Text} {i : Nat} (inside : i ≤ names.length) : Splits names i := by
  induction i with
  | zero => simp [Splits, usableBefore, StandsIn]
  | succ i ih =>
    have declared := List.getElem?_eq_getElem inside
    obtain ⟨k, chosen, found⟩ := getElem?_locals declared
    have grown : (locals names).take (i + 1) =
        (locals names).take i ++ [underscored (wanted names i names[i]) k] := by
      rw [List.take_add_one, found, Option.toList_some]
    have split := ih (Nat.le_of_succ_le inside)
    cases usable : isUsable names names[i] with
    | true =>
      rw [wanted, if_pos usable] at chosen grown
      exact splits_succ_of_usable split declared usable chosen grown
    | false =>
      rw [wanted, if_neg (by simp [usable])] at chosen grown
      exact splits_succ_of_unnamed split declared usable chosen grown

/-! Placeholders in identifiers. -/

/-- In an identifier the digits of a placeholder are those from `0` to `9`. -/
theorem isPlaceholder_eq_false {name : Text} (identifier : isIdentifier name = true)
    (named : ¬∃ digits, name = "arg".toList ++ digits ∧ digits ≠ [] ∧ ∀ c ∈ digits, c.isDigit = true) :
    isPlaceholder name = false := by
  refine Bool.eq_false_iff.mpr fun placeholder => named ?_
  unfold isPlaceholder at placeholder
  split at placeholder
  · rename_i digits cut
    have shape := dropPrefix?_eq_some.mp cut
    simp only [Bool.and_eq_true, Bool.not_eq_true', List.isEmpty_eq_false_iff, List.all_eq_true] at placeholder
    refine ⟨digits, shape, placeholder.1, fun c member => ?_⟩
    have continues : isAsciiIdentifierContinue c = true := by
      apply isAsciiIdentifierContinue_of_mem identifier
      rw [shape]
      exact List.mem_append_right _ member
    have ascii := toNat_of_isAsciiIdentifierContinue continues
    by_contra other
    have digit := placeholder.2 c member
    rw [isDigit, decimalValue?, if_neg other, if_pos ascii] at digit
    simp only [Option.isSome_none, Bool.false_or, Bool.and_eq_true, decide_eq_true_eq] at digit
    omega
  · cases placeholder

/-- A declared name that an argument can go by (an identifier, declared once, that is neither one of the names that
tests use themselves nor a placeholder) is its local, unless an earlier argument without such a name goes by it:
the name is then the number of that argument with underscores behind it, and with fewer underscores it is
declared before as well. -/
theorem local_eq_declared_iff {names : List Text} {i : Nat} {name : Text}
    (declared : names[i]? = some name) (identifier : isIdentifier name = true) (once : names.count name = 1)
    (free : ∀ reserved ∈ ["result", "instance", "self", "_"], name ≠ reserved.toList)
    (named : ¬∃ digits, name = "arg".toList ++ digits ∧ digits ≠ [] ∧ ∀ c ∈ digits, c.isDigit = true) :
    (locals names)[i]? = some name ↔
      ¬∃ j < i, IsUnnamed names j ∧ ∃ k, name = underscored (numbered j) k ∧
        ∀ l < k, underscored (numbered j) l ∈ usableBefore names i := by
  have unreserved : name ∉ reservedLocals := by
    intro member
    obtain ⟨reserved, listed, rfl⟩ := List.mem_map.mp member
    exact free reserved listed rfl
  have usable : isUsable names name = true :=
    isUsable_iff.mpr ⟨identifier, unreserved, once, isPlaceholder_eq_false identifier named⟩
  have absent := not_mem_usableBefore declared usable
  have split := splits_locals (Nat.le_of_lt (List.getElem?_eq_some_iff.mp declared).1)
  obtain ⟨k, chosen, found⟩ := getElem?_locals declared
  rw [wanted, if_pos usable] at chosen found
  have kept : (locals names)[i]? = some name ↔ ¬StandsIn names i name := by
    have given : StandsIn names i name ↔ name ∈ (locals names).take i :=
      ((split name).trans (or_iff_right absent)).symm
    rw [found, Option.some_inj, given]
    constructor
    · rintro same
      rw [← same]
      exact chosen.2.1
    · intro apart
      have first : IsFirstFree ((locals names).take i) (underscored name) 0 0 :=
        ⟨Nat.le_refl 0, by rwa [underscored_zero], fun l _ low => absurd low (Nat.not_lt_zero l)⟩
      rw [chosen.unique first, underscored_zero]
  rw [kept, not_iff_not]
  refine exists_congr fun j => and_congr_right fun _ => and_congr_right fun _ => ?_
  constructor
  · intro stands
    obtain ⟨k, first, same⟩ := exists_standIn names i j
    exact ⟨k, stands.trans same, fun l low => first.2.2 l (Nat.zero_le l) low⟩
  · rintro ⟨k, rfl, before⟩
    exact (standIn_eq ⟨Nat.zero_le k, absent, fun l _ low => before l low⟩).symm

/-- An argument without a name, and one whose name is the number of the first. -/
def crossing : List Text := ["arg0", "param_0", "x"].map String.toList

theorem crossing_lost :
    (crossing[1]? = some "param_0".toList ∧ isIdentifier "param_0".toList = true ∧
      crossing.count "param_0".toList = 1 ∧
      (∀ reserved ∈ ["result", "instance", "self", "_"], "param_0".toList ≠ reserved.toList) ∧
      ¬∃ digits, "param_0".toList = "arg".toList ++ digits ∧ digits ≠ [] ∧ ∀ c ∈ digits, c.isDigit = true) ∧
    (locals crossing)[1]? ≠ some "param_0".toList ∧
    locals crossing = ["param_0", "param_0_", "x"].map String.toList := by
  have declared : crossing[1]? = some "param_0".toList := by decide
  have free : ∀ reserved ∈ ["result", "instance", "self", "_"], "param_0".toList ≠ reserved.toList := by decide
  have named : ¬∃ digits, "param_0".toList = "arg".toList ++ digits ∧ digits ≠ [] ∧
      ∀ c ∈ digits, c.isDigit = true := by
    rintro ⟨digits, same, -⟩
    cases same
  have unnamed : IsUnnamed crossing 0 := ⟨"arg0".toList, rfl, by decide⟩
  have kept := local_eq_declared_iff declared (by decide) (by decide) free named
  refine ⟨⟨declared, by decide, by decide, free, named⟩, fun same => kept.mp same ?_, by decide⟩
  exact ⟨0, by decide, unnamed, 0, by decide, fun l low => absurd low (Nat.not_lt_zero l)⟩

end TestSkeleton.Naming
