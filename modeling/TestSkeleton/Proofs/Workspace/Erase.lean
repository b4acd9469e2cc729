import TestSkeleton.Proofs.Workspace.Growth
import TestSkeleton.Proofs.Workspace.Leading

/-! A tree without one of its files: all else is found as before. -/

namespace TestSkeleton

namespace FileTree

variable {t : FileTree} {place : Place}

theorem entryAt?_erase (filled : place ≠ []) (other : Place) :
    (t.erase place).entryAt? other = if other = place then none else t.entryAt? other := by
  by_cases top : other = []
  · subst top
    rw [entryAt?_nil, entryAt?_nil, if_neg filled.symm]
  rw [entryAt?_eq_get? top, entryAt?_eq_get? top, erase]
  induction t.entries with
  | nil => simp [Table.get?]
  | cons e entries ih =>
    obtain ⟨key, entry⟩ := e
    rw [Table.get?_cons]
    by_cases here : key = place
    · subst here
      rw [List.filter_cons_of_neg (by simp), ih]
      split
      · rfl
      · rfl
    · rw [List.filter_cons_of_pos (by simpa using here), Table.get?_cons, ih]
      by_cases same : other = key
      · rw [if_pos same, if_pos same, if_neg (same ▸ here)]
      · rw [if_neg same, if_neg same]

theorem entryAt?_erase_of_ne (filled : place ≠ []) {other : Place} (apart : other ≠ place) :
    (t.erase place).entryAt? other = t.entryAt? other := by
  rw [entryAt?_erase filled, if_neg apart]

theorem Linkless.erase (linkless : t.Linkless) (filled : place ≠ []) : (t.erase place).Linkless := by
  intro other target
  rw [entryAt?_erase filled]
  split
  · simp
  · exact linkless other target

theorem mem_keys_erase {key : Place} :
    key ∈ (t.erase place).entries.keys ↔ key ∈ t.entries.keys ∧ key ≠ place := by
  simp only [erase, Table.keys, List.mem_map, List.mem_filter, decide_eq_true_eq]
  constructor
  · rintro ⟨entry, ⟨listed, apart⟩, rfl⟩
    exact ⟨⟨entry, listed, rfl⟩, apart⟩
  · rintro ⟨⟨entry, listed, rfl⟩, apart⟩
    exact ⟨entry, ⟨listed, apart⟩, rfl⟩

/-- Without one of its files a tree stays well formed. -/
theorem WellFormed.erase (wellFormed : t.WellFormed) {content : Bytes}
    (file : t.entryAt? place = some (.file content)) : (t.erase place).WellFormed := by
  have filled : place ≠ [] := by
    rintro rfl
    cases file
  constructor
  case distinct => exact wellFormed.distinct.sublist (List.filter_sublist.map _)
  case named => exact fun key listed => wellFormed.named key (mem_keys_erase.mp listed).1
  case filled => exact fun listed => wellFormed.filled (mem_keys_erase.mp listed).1
  case folders =>
    intro key listed
    have folder := wellFormed.folders key (mem_keys_erase.mp listed).1
    rw [entryAt?_erase_of_ne filled, folder]
    intro same
    rw [same, file] at folder
    cases folder

/-- Names that lead to a file lead nowhere without it, those that go on behind it fail in another way,
and all others lead where they led. -/
theorem reach_erase {content : Bytes} (file : t.entryAt? place = some (.file content))
    (folder : Place) (names : List Text) :
    (t.erase place).reach folder names = t.reach folder names ∨
      t.reach folder names = .ok ⟨place, some (.file content)⟩ ∧
        (t.erase place).reach folder names = .ok ⟨place, none⟩ ∨
      t.reach folder names = .error .notFolder ∧
        (t.erase place).reach folder names = .error .notFound := by
  have filled : place ≠ [] := by
    rintro rfl
    cases file
  induction names generalizing folder with
  | nil =>
    rw [reach, reach, entryAt?_erase filled]
    by_cases here : folder = place
    · rw [if_pos here, here, file]
      exact .inr (.inl ⟨rfl, rfl⟩)
    · rw [if_neg here]
      exact .inl rfl
  | cons name rest ih =>
    rcases dot_or_up_or_isStep name with rfl | rfl | step
    · rw [reach_dot, reach_dot]
      exact ih folder
    · rw [reach_up, reach_up]
      exact ih folder.dropLast
    by_cases short : IsShort name
    swap
    · rw [reach_long step short, reach_long step short]
      exact .inl rfl
    have erased := entryAt?_erase (t := t) filled (folder ++ [name])
    by_cases here : folder ++ [name] = place
    · rw [if_pos here] at erased
      rw [reach_closed step short (by simp [erased]), reach_closed step short (by simp [here, file]),
        erased, here, file]
      cases rest with
      | nil => exact .inr (.inl ⟨rfl, rfl⟩)
      | cons next rest => exact .inr (.inr ⟨rfl, rfl⟩)
    rw [if_neg here] at erased
    by_cases inner : t.entryAt? (folder ++ [name]) = some .folder
    · rw [reach_folder step short inner, reach_folder step short (erased.trans inner)]
      exact ih (folder ++ [name])
    · rw [reach_closed step short inner, reach_closed step short (by rwa [erased]), erased]
      exact .inl rfl

end FileTree

namespace Workspace

/-- A workspace without one of its files. -/
def without (w : Workspace) (place : Place) : Workspace := { w with files := w.files.erase place }

section Without

variable {w : Workspace} {place : Place}

theorem files_without : (w.without place).files = w.files.erase place := rfl

theorem absolute_without (p : Path) : (w.without place).absolute p = w.absolute p := rfl

theorem expandHome_without (p : Path) : (w.without place).expandHome p = w.expandHome p := rfl

variable (linkless : w.files.Linkless) {content : Bytes}
  (file : w.files.entryAt? place = some (.file content))

include file in
theorem filled_of_file : place ≠ [] := by
  rintro rfl
  cases file

include linkless file

theorem linkless_without : (w.without place).files.Linkless := linkless.erase (filled_of_file file)

/-- A path leads to the file, behind it, or where it led before. -/
theorem locate_without (p : Path) (followLast : Bool) :
    (w.without place).locate p followLast = w.locate p followLast ∨
      w.locate p followLast = .ok ⟨place, some (.file content)⟩ ∧
        (w.without place).locate p followLast = .ok ⟨place, none⟩ ∨
      w.locate p followLast = .error .notFolder ∧
        (w.without place).locate p followLast = .error .notFound := by
  rw [locate_eq_reach linkless, locate_eq_reach (linkless_without linkless file)]
  split
  · exact .inl rfl
  · exact FileTree.reach_erase file _ _

/-- What a path finds without a file: nothing where it led to the file or behind it, and else what it
found before. -/
theorem entry_without (p : Path) :
    (w.without place).entry p = w.entry p ∨
      (w.locate p = .ok ⟨place, some (.file content)⟩ ∧ w.entry p = .ok (.file content) ∨
          w.entry p = .error .notFolder) ∧
        (w.without place).entry p = .error .notFound := by
  rcases locate_without linkless file p true with same | ⟨there, gone⟩ | ⟨there, gone⟩
  · left
    rw [entry, entry, same]
  · refine .inr ⟨.inl ⟨there, ?_⟩, ?_⟩
    · rw [entry, there]
      rfl
    · rw [entry, gone]
      rfl
  · refine .inr ⟨.inr ?_, ?_⟩
    · rw [entry, there]
      rfl
    · rw [entry, gone]
      rfl

/-- What is a folder, and what is none, stays so. -/
theorem isFolder_without (p : Path) : (w.without place).isFolder p = w.isFolder p := by
  rcases entry_without linkless file p with same | ⟨⟨-, there⟩ | there, gone⟩
  · exact isFolder_congr same
  · rw [isFolder, isFolder, entryAt?, entryAt?, there, gone]
    rfl
  · rw [isFolder, isFolder, entryAt?, entryAt?, there, gone]
    rfl

/-- A path that passes the file neither on its way nor at its end finds what it found. -/
theorem entry_without_of_way {p : Path} (off : place ∉ w.way p) :
    (w.without place).entry p = w.entry p := by
  have kept : (w.without place).files.reach (w.base p) p.parts = w.files.reach (w.base p) p.parts :=
    FileTree.reach_congr fun q passed =>
      FileTree.entryAt?_erase_of_ne (filled_of_file file) fun same => off (same ▸ passed)
  have base : (w.without place).base p = w.base p := rfl
  rw [entry, entry, locate_eq_reach linkless, locate_eq_reach (linkless_without linkless file), base, kept]

/-- A path spelled by names finds what it found, unless the file is on the way that they spell. -/
theorem entry_without_of_steps {p : Path} (absolute : p.isAbsolute = true)
    (steps : ∀ name ∈ p.parts, FileTree.IsStep name) (off : ¬place <+: p.parts) :
    (w.without place).entry p = w.entry p := by
  refine entry_without_of_way linkless file fun passed => ?_
  rw [way, base, if_pos absolute] at passed
  obtain ⟨front, inside, rfl⟩ := FileTree.exists_front_of_mem_way steps passed
  exact off inside

theorem resolve_without (p : Path) : (w.without place).resolve p = w.resolve p := by
  rw [resolve_eq_ok linkless, resolve_eq_ok (linkless_without linkless file), absolute_without]

end Without

end Workspace

end TestSkeleton
