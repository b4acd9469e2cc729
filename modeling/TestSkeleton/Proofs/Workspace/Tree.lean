import Mathlib.Data.List.Induction
import Mathlib.Data.List.Nodup
import TestSkeleton.Proofs.Table
import TestSkeleton.Proofs.Workspace.Path
import TestSkeleton.Workspace.FileTree

/-! Laws of file trees: what an entry changes, and the names in a folder. -/

namespace TestSkeleton

namespace FileTree

/-- Whether all entries of a tree have names. -/
def Named (t : FileTree) : Prop :=
  ∀ place ∈ t.entries.keys, ∀ name ∈ place, Path.IsName name

instance (t : FileTree) : Decidable t.Named :=
  inferInstanceAs (Decidable (∀ place ∈ t.entries.keys, ∀ name ∈ place, Path.IsName name))

/-- A tree as a file system holds it: a place has one entry, entries have names, and what holds an
entry is a folder. -/
structure WellFormed (t : FileTree) : Prop where
  distinct : t.entries.keys.Nodup
  named : t.Named
  filled : [] ∉ t.entries.keys
  folders : ∀ place ∈ t.entries.keys, t.entryAt? place.dropLast = some .folder

section Entries

variable {t : FileTree} {place : Place} {entry : Entry}

theorem entryAt?_nil (t : FileTree) : t.entryAt? [] = some .folder := rfl

theorem entryAt?_eq_get? (filled : place ≠ []) : t.entryAt? place = t.entries.get? place :=
  if_neg filled

theorem entryAt?_eq_none_iff (filled : place ≠ []) :
    t.entryAt? place = none ↔ place ∉ t.entries.keys := by
  rw [entryAt?_eq_get? filled, Table.get?_eq_none_iff]

theorem mem_keys_of_entryAt?_eq_some (filled : place ≠ []) (found : t.entryAt? place = some entry) :
    place ∈ t.entries.keys := by
  by_contra absent
  rw [(entryAt?_eq_none_iff filled).mpr absent] at found
  cases found

theorem entryAt?_put (filled : place ≠ []) (other : Place) :
    (t.put place entry).entryAt? other = if other = place then some entry else t.entryAt? other := by
  by_cases top : other = []
  · subst top
    rw [entryAt?_nil, entryAt?_nil, if_neg (Ne.symm filled)]
  · rw [entryAt?_eq_get? top, entryAt?_eq_get? top, put, Table.get?_put]
    simp only [beq_iff_eq]

theorem put_eq_self (filled : place ≠ []) (found : t.entryAt? place = some entry) :
    t.put place entry = t := by
  rw [entryAt?_eq_get? filled] at found
  rw [put, Table.put_eq_self found]

theorem put_put (t : FileTree) (place : Place) (entry later : Entry) :
    (t.put place entry).put place later = t.put place later := by
  rw [put, put, put, Table.put_put]

/-- A new entry that is taken away again leaves the tree as it was. -/
theorem erase_put (filled : place ≠ []) (absent : t.entryAt? place = none) :
    (t.put place entry).erase place = t := by
  have new := (entryAt?_eq_none_iff filled).mp absent
  have others : ∀ e ∈ t.entries, decide (e.1 ≠ place) = true := by
    intro e listed
    rw [decide_eq_true_eq]
    rintro rfl
    exact new (List.mem_map_of_mem listed)
  rw [put, erase, Table.put_of_not_mem entry new, List.filter_append, List.filter_eq_self.mpr others]
  simp

end Entries

section WellFormed

variable {t : FileTree} (wellFormed : t.WellFormed)

include wellFormed

theorem WellFormed.isName {place : Place} (there : t.entryAt? place ≠ none) :
    ∀ name ∈ place, Path.IsName name := by
  intro name member
  have filled : place ≠ [] := List.ne_nil_of_mem member
  obtain ⟨entry, found⟩ := Option.ne_none_iff_exists'.mp there
  exact wellFormed.named place (mem_keys_of_entryAt?_eq_some filled found) name member

theorem WellFormed.isName_of_entry {place : Place} {entry : Entry} (found : t.entryAt? place = some entry) :
    ∀ name ∈ place, Path.IsName name :=
  wellFormed.isName (by simp [found])

theorem WellFormed.areParts {place : Place} {entry : Entry} (found : t.entryAt? place = some entry) :
    Path.AreParts place := fun name member =>
  have isName := wellFormed.isName_of_entry found name member
  ⟨isName.1, isName.2.1, isName.2.2.2⟩

theorem WellFormed.entryAt?_dropLast {place : Place} {entry : Entry}
    (found : t.entryAt? place = some entry) : t.entryAt? place.dropLast = some .folder := by
  by_cases top : place = []
  · rw [top]
    rfl
  · exact wellFormed.folders _ (mem_keys_of_entryAt?_eq_some top found)

theorem WellFormed.outer {place : Place} {name : Text} {entry : Entry}
    (found : t.entryAt? (place ++ [name]) = some entry) : t.entryAt? place = some .folder := by
  have outer := wellFormed.entryAt?_dropLast found
  rwa [List.dropLast_concat] at outer

/-- Around an entry there are folders only. -/
theorem WellFormed.around {front rest : Place} {entry : Entry} (deeper : rest ≠ [])
    (found : t.entryAt? (front ++ rest) = some entry) : t.entryAt? front = some .folder := by
  induction rest using List.reverseRecOn generalizing entry with
  | nil => exact absurd rfl deeper
  | append_singleton rest name ih =>
    rw [← List.append_assoc] at found
    have outer := wellFormed.outer found
    by_cases last : rest = []
    · rwa [last, List.append_nil] at outer
    · exact ih last outer

/-- On the way to an entry there are entries only. -/
theorem WellFormed.isKey_of_append {front rest : Place} {entry : Entry} (filled : front ≠ [])
    (found : t.entryAt? (front ++ rest) = some entry) : front ∈ t.entries.keys := by
  by_cases last : rest = []
  · rw [last, List.append_nil] at found
    exact mem_keys_of_entryAt?_eq_some filled found
  · exact mem_keys_of_entryAt?_eq_some filled (wellFormed.around last found)

/-- Inside what is no folder there is nothing. -/
theorem WellFormed.inside {front : Place} (rest : Place) (deeper : rest ≠ [])
    (closed : t.entryAt? front ≠ some .folder) : t.entryAt? (front ++ rest) = none := by
  cases found : t.entryAt? (front ++ rest) with
  | none => rfl
  | some entry => exact absurd (wellFormed.around deeper found) closed

/-- A new entry in a folder keeps a tree well formed. A folder stays what it is. -/
theorem WellFormed.put {place : Place} {name : Text} {entry : Entry} (isName : Path.IsName name)
    (outer : t.entryAt? place = some .folder)
    (kept : t.entryAt? (place ++ [name]) = some .folder → entry = .folder) :
    (t.put (place ++ [name]) entry).WellFormed := by
  have filled : place ++ [name] ≠ [] := by simp
  have keys : ∀ key, key ∈ (t.put (place ++ [name]) entry).entries.keys ↔
      key ∈ t.entries.keys ∨ key = place ++ [name] := by
    intro key
    rw [FileTree.put, Table.keys_put]
    split
    · rename_i member
      exact ⟨.inl, fun either => either.elim id fun same => same ▸ member⟩
    · rw [List.mem_append, List.mem_singleton]
  have folder : ∀ q, t.entryAt? q = some .folder →
      (t.put (place ++ [name]) entry).entryAt? q = some .folder := by
    intro q found
    rw [entryAt?_put filled]
    split
    · rename_i same
      rw [kept (same ▸ found)]
    · exact found
  constructor
  case distinct => exact Table.nodup_keys_put _ _ wellFormed.distinct
  case named =>
    intro key listed n inside
    rcases (keys key).mp listed with old | rfl
    · exact wellFormed.named key old n inside
    · rcases List.mem_append.mp inside with above | last
      · cases place with
        | nil => cases above
        | cons first rest =>
          exact wellFormed.named _ (mem_keys_of_entryAt?_eq_some (by simp) outer) n above
      · rw [List.mem_singleton.mp last]
        exact isName
  case filled =>
    intro listed
    rcases (keys []).mp listed with old | same
    · exact wellFormed.filled old
    · exact filled same.symm
  case folders =>
    intro key listed
    rcases (keys key).mp listed with old | rfl
    · exact folder _ (wellFormed.folders key old)
    · rw [List.dropLast_concat]
      exact folder _ outer

end WellFormed

section Names

variable {t : FileTree} {folder : Place}

theorem mem_namesIn {name : Text} :
    name ∈ t.namesIn folder ↔ folder ++ [name] ∈ t.entries.keys := by
  rw [namesIn, List.mem_mergeSort, List.mem_filterMap]
  constructor
  · rintro ⟨place, key, last⟩
    cases found : place.getLast? with
    | none => simp [found] at last
    | some n =>
      obtain ⟨front, rfl⟩ := List.getLast?_eq_some_iff.mp found
      simp only [found, List.dropLast_concat, Option.ite_none_right_eq_some, Option.some.injEq] at last
      rwa [← last.1, ← last.2]
  · exact fun key => ⟨folder ++ [name], key, by simp⟩

/-- The name that a place adds to the names of a folder tells the place. -/
theorem eq_append_of_mem_name {p : Place} {name : Text}
    (member : name ∈ match p.getLast? with
      | some name => if p.dropLast = folder then some name else none
      | none => none) : p = folder ++ [name] := by
  cases found : p.getLast? with
  | none => simp [found] at member
  | some n =>
    obtain ⟨front, rfl⟩ := List.getLast?_eq_some_iff.mp found
    simp only [found, List.dropLast_concat, Option.mem_def, Option.ite_none_right_eq_some,
      Option.some.injEq] at member
    rw [member.1, member.2]

theorem nodup_namesIn (wellFormed : t.WellFormed) : (t.namesIn folder).Nodup := by
  rw [namesIn, (List.mergeSort_perm _ _).nodup_iff]
  refine wellFormed.distinct.filterMap fun a b name first second => ?_
  rw [eq_append_of_mem_name first, eq_append_of_mem_name second]

theorem nameLe_iff {a b : Text} : nameLe a b = true ↔ List.le a b := by
  rw [nameLe, Bool.not_eq_true', decide_eq_false_iff_not]

theorem nameLe_trans (a b c : Text) (first : nameLe a b = true) (second : nameLe b c = true) :
    nameLe a c = true := by
  rw [nameLe_iff] at first second ⊢
  exact List.le_trans first second

theorem nameLe_total (a b : Text) : (nameLe a b || nameLe b a) = true := by
  rw [Bool.or_eq_true, nameLe_iff, nameLe_iff]
  exact List.le_total a b

theorem nameLe_antisymm {a b : Text} (first : nameLe a b = true) (second : nameLe b a = true) :
    a = b :=
  List.le_antisymm (nameLe_iff.mp first) (nameLe_iff.mp second)

theorem pairwise_namesIn : (t.namesIn folder).Pairwise fun a b => nameLe a b = true :=
  List.pairwise_mergeSort nameLe_trans nameLe_total _

/-- The names in a folder are told by which names are there. -/
theorem namesIn_eq_filter {t' : FileTree} (wellFormed : t.WellFormed) (wellFormed' : t'.WellFormed)
    {p : Text → Bool}
    (same : ∀ name, name ∈ t.namesIn folder ↔ name ∈ t'.namesIn folder ∧ p name = true) :
    t.namesIn folder = (t'.namesIn folder).filter p := by
  have equal : (t.namesIn folder).Perm ((t'.namesIn folder).filter p) := by
    rw [List.perm_ext_iff_of_nodup (nodup_namesIn wellFormed) ((nodup_namesIn wellFormed').filter p)]
    intro name
    rw [same, List.mem_filter]
  exact equal.eq_of_pairwise (fun _ _ _ _ => nameLe_antisymm) pairwise_namesIn
    (pairwise_namesIn.filter p)

end Names

end FileTree

end TestSkeleton
