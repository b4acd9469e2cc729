import TestSkeleton.Proofs.Workspace.Change

/-! What a path leads to before files are saved in a folder, and what it leads to afterwards. -/

namespace TestSkeleton

namespace FileTree

/-- Every entry is there in the other tree, as a folder just when it was one. -/
def Extends (t t' : FileTree) : Prop :=
  ∀ q entry, t.entryAt? q = some entry →
    ∃ entry', t'.entryAt? q = some entry' ∧ (entry = .folder ↔ entry' = .folder)

/-- What names lead to is there in a tree with more entries. -/
theorem Extends.reach {t t' : FileTree} (more : t.Extends t') {folder : Place} {names : List Text}
    {place : Place} {entry : Entry} (led : t.reach folder names = .ok ⟨place, some entry⟩) :
    ∃ entry', t'.reach folder names = .ok ⟨place, some entry'⟩ := by
  induction names generalizing folder with
  | nil =>
    obtain ⟨here, found⟩ := Spot.mk.inj (Except.ok.inj led)
    obtain ⟨entry', there, -⟩ := more folder entry found
    exact ⟨entry', by rw [FileTree.reach, there, here]⟩
  | cons name rest ih =>
    rcases dot_or_up_or_isStep name with rfl | rfl | step
    · rw [reach_dot] at led ⊢
      exact ih led
    · rw [reach_up] at led ⊢
      exact ih led
    by_cases short : IsShort name
    · by_cases inner : t.entryAt? (folder ++ [name]) = some .folder
      · obtain ⟨entry', there, kept⟩ := more _ _ inner
        rw [reach_folder step short inner] at led
        rw [reach_folder step short (there.trans (congrArg some (kept.mp rfl)))]
        exact ih led
      · rw [reach_closed step short inner] at led
        split at led
        · rename_i last
          obtain ⟨here, found⟩ := Spot.mk.inj (Except.ok.inj led)
          obtain ⟨entry', there, -⟩ := more _ _ found
          cases List.isEmpty_iff.mp last
          exact ⟨entry', by rw [reach_last step short, there, here]⟩
        · cases led
    · rw [reach_long step short] at led
      cases led

/-- Names that lead through folders to nothing. -/
theorem reach_missing {t : FileTree} {folder : Place} {names : List Text}
    (steps : ∀ name ∈ names, IsStep name) (short : ∀ name ∈ names, IsShort name)
    (plain : ∀ front, front <+: names → front ≠ [] →
      t.entryAt? (folder ++ front) = some .folder ∨ t.entryAt? (folder ++ front) = none)
    (filled : names ≠ []) (missing : t.entryAt? (folder ++ names) = none) :
    t.reach folder names = .error .notFound ∨ t.reach folder names = .ok ⟨folder ++ names, none⟩ := by
  induction names generalizing folder with
  | nil => exact absurd rfl filled
  | cons name rest ih =>
    have step := steps name List.mem_cons_self
    have here := short name List.mem_cons_self
    have onward : folder ++ name :: rest = folder ++ [name] ++ rest := by simp
    rcases plain [name] (by simp) (by simp) with isFolder | absent
    · rw [reach_folder step here isFolder]
      rw [onward] at missing ⊢
      have more : rest ≠ [] := by
        rintro rfl
        rw [List.append_nil, isFolder] at missing
        cases missing
      refine ih (fun n member => steps n (List.mem_cons_of_mem _ member))
        (fun n member => short n (List.mem_cons_of_mem _ member)) ?_ more missing
      intro front inside _
      rw [List.append_assoc]
      exact plain (name :: front) (List.cons_prefix_cons.mpr ⟨rfl, inside⟩) (by simp)
    · rw [reach_closed step here (by simp [absent]), absent]
      cases rest with
      | nil => exact .inr rfl
      | cons next rest => exact .inl rfl

end FileTree

namespace Workspace

section Congr

variable {w w' : Workspace} {p : Path}

theorem isFile_congr (same : w'.entry p = w.entry p) : w'.isFile p = w.isFile p := by
  simp only [isFile, entryAt?, same]

theorem isFolder_congr (same : w'.entry p = w.entry p) : w'.isFolder p = w.isFolder p := by
  simp only [isFolder, entryAt?, same]

theorem isPresent_congr (same : w'.entry p = w.entry p) : w'.isPresent p = w.isPresent p := by
  simp only [isPresent, entryAt?, same]

theorem readText_congr (same : w'.entry p = w.entry p) : w'.readText p = w.readText p := by
  simp only [readText, readBytes, same]

end Congr

/-- The places that a path passes. -/
def way (w : Workspace) (p : Path) : List Place := FileTree.way (w.base p) p.parts

/-- The places from which a path steps up. -/
def departures (w : Workspace) (p : Path) : List Place := FileTree.departures (w.base p) p.parts

/-- Whether a folder is missing that saving files in another one makes. -/
def IsMadeFor (w : Workspace) (folder place : Place) : Prop :=
  place <+: folder ∧ w.files.entryAt? place = none

/-- A path that steps up from no folder that is made for another one. -/
def StepsClear (w : Workspace) (folder : Place) (p : Path) : Prop :=
  ∀ q ∈ w.departures p, ¬w.IsMadeFor folder q

theorem StepsClear.child {w : Workspace} {folder : Place} {p : Path} (clear : w.StepsClear folder p)
    {name : Text} (isName : Path.IsName name) : w.StepsClear folder (p.child name) := by
  intro q left
  rw [isName.child, departures, FileTree.departures_append_step ⟨isName.2.1, isName.2.2.1⟩] at left
  exact clear q left

theorem entry_eq_ok_iff {w : Workspace} {p : Path} {entry : Entry} :
    w.entry p = .ok entry ↔ ∃ place, w.locate p = .ok ⟨place, some entry⟩ := by
  unfold Workspace.entry
  cases w.locate p with
  | error fault => simp [bind, Except.bind]
  | ok spot =>
    obtain ⟨place, found⟩ := spot
    cases found with
    | none => simp [bind, Except.bind, throw, throwThe, MonadExceptOf.throw]
    | some other => simp [bind, Except.bind, pure, Except.pure]

section Entry

variable {w : Workspace} (linkless : w.files.Linkless)

include linkless

/-- A path through folders to nothing finds nothing. -/
theorem entry_eq_notFound {place : Place} (steps : ∀ name ∈ place, FileTree.IsStep name)
    (within : IsWithin place)
    (plain : ∀ front, front <+: place →
      w.files.entryAt? front = some .folder ∨ w.files.entryAt? front = none)
    (missing : w.files.entryAt? place = none) : w.entry ⟨.slash, place⟩ = .error .notFound := by
  have filled : place ≠ [] := by
    rintro rfl
    cases missing
  have led : w.files.reach [] place = .error .notFound ∨
      w.files.reach [] place = .ok ⟨place, none⟩ :=
    FileTree.reach_missing steps within.2 (fun front inside _ => plain front inside) filled missing
  have base : w.base ⟨.slash, place⟩ = [] := rfl
  rw [Workspace.entry, locate_eq_reach linkless, if_neg (Nat.not_lt.mpr within.1), base]
  rcases led with led | led
  · rw [led]
    rfl
  · rw [led]
    rfl

end Entry

end Workspace

namespace Change.Grown

open Workspace

variable {place : Place} {names : List Text} {w w' : Workspace} (grown : Grown place names w w')

include grown

/-- What is there stays, apart from the files that were saved. -/
theorem same {q : Place} (there : w.files.entryAt? q ≠ none) (other : ∀ n ∈ names, q ≠ place ++ [n]) :
    w'.files.entryAt? q = w.files.entryAt? q := by
  by_cases inside : q <+: place
  · rw [grown.folders q inside, (grown.before q inside).resolve_right there]
  · exact grown.apart q inside other

/-- What is new is a folder on the way to the saved files, or one of them. -/
theorem inside_of_new {q : Place} (absent : w.files.entryAt? q = none)
    (there : w'.files.entryAt? q ≠ none) (other : ∀ n ∈ names, q ≠ place ++ [n]) : q <+: place := by
  by_contra outside
  exact there (by rw [grown.apart q outside other, absent])

theorem extends_files : w.files.Extends w'.files := by
  intro q entry found
  by_cases other : ∀ n ∈ names, q ≠ place ++ [n]
  · exact ⟨entry, by rw [grown.same (by simp [found]) other, found], Iff.rfl⟩
  · push Not at other
    obtain ⟨n, member, rfl⟩ := other
    obtain ⟨content, saved⟩ := grown.saved n member
    refine ⟨_, saved, iff_of_false (fun folder => ?_) (by simp)⟩
    exact absurd (folder ▸ found) (grown.closed n member)

theorem base_eq (p : Path) : w'.base p = w.base p := by
  rw [Workspace.base, Workspace.base, grown.current]

/-- What is new is a folder that was made, or one of the saved files. -/
theorem made_or_saved {q : Place} (absent : w.files.entryAt? q = none)
    (there : w'.files.entryAt? q ≠ none) :
    w.IsMadeFor place q ∧ w'.files.entryAt? q = some .folder ∨
      ∃ n ∈ names, q = place ++ [n] ∧ ∃ content, w'.files.entryAt? q = some (.file content) := by
  by_cases other : ∀ n ∈ names, q ≠ place ++ [n]
  · have inside := grown.inside_of_new absent there other
    exact .inl ⟨⟨inside, absent⟩, grown.folders q inside⟩
  · push Not at other
    obtain ⟨n, member, rfl⟩ := other
    exact .inr ⟨n, member, rfl, grown.saved n member⟩

/-- By a name that led nowhere, no file is found but a saved one. -/
theorem reach_new {folder spot : Place} {name : Text} {rest : List Text} {content : Bytes}
    (step : FileTree.IsStep name) (absent : w.files.entryAt? (folder ++ [name]) = none)
    (other : ∀ n ∈ names, (name :: rest).getLast? ≠ some n)
    (deeper : w.IsMadeFor place (folder ++ [name]) →
      w'.files.reach (folder ++ [name]) rest ≠ .ok ⟨spot, some (.file content)⟩) :
    w'.files.reach folder (name :: rest) ≠ .ok ⟨spot, some (.file content)⟩ := by
  by_cases short : FileTree.IsShort name
  swap
  · simp [FileTree.reach_long step short]
  by_cases there : w'.files.entryAt? (folder ++ [name]) = none
  · rw [FileTree.reach_closed step short (by simp [there]), there]
    cases rest <;> simp
  rcases grown.made_or_saved absent there with ⟨made, isFolder⟩ | ⟨n, member, same, file, saved⟩
  · rw [FileTree.reach_folder step short isFolder]
    exact deeper made
  · cases rest with
    | nil =>
      obtain rfl := List.singleton_inj.mp (List.append_inj_right' same rfl)
      exact absurd rfl (other name member)
    | cons next rest =>
      rw [FileTree.reach_past step short (by simp [saved]) (by simp)]
      simp

/-- From a folder that was made, names that step up from no such folder lead to no file but a saved
one. -/
theorem reach_made (wellFormed : w.files.WellFormed) {folder : Place} {path : List Text}
    (made : w.IsMadeFor place folder)
    (steady : ∀ q ∈ FileTree.departures folder path, ¬w.IsMadeFor place q)
    (other : ∀ n ∈ names, path.getLast? ≠ some n) (spot : Place) (content : Bytes) :
    w'.files.reach folder path ≠ .ok ⟨spot, some (.file content)⟩ := by
  induction path generalizing folder with
  | nil => simp [FileTree.reach, grown.folders folder made.1]
  | cons name rest ih =>
    have later : ∀ n ∈ names, rest.getLast? ≠ some n := fun n member ends =>
      other n member (by rw [List.getLast?_cons, ends]; rfl)
    rcases FileTree.dot_or_up_or_isStep name with rfl | rfl | step
    · rw [FileTree.departures_dot] at steady
      rw [FileTree.reach_dot]
      exact ih made steady later
    · rw [FileTree.departures_up] at steady
      exact absurd made (steady folder List.mem_cons_self)
    rw [FileTree.departures_step step] at steady
    have absent : w.files.entryAt? (folder ++ [name]) = none :=
      wellFormed.inside [name] (by simp) (by simp [made.2])
    exact grown.reach_new step absent other fun deeper => ih deeper steady later

/-- Names that step up from no folder that was made lead to a file that was not saved exactly as
before. -/
theorem reach_eq_file_iff (linkless : w.files.Linkless) (wellFormed : w.files.WellFormed)
    {folder : Place} {path : List Text} (there : w.files.entryAt? folder = some .folder)
    (steady : ∀ q ∈ FileTree.departures folder path, ¬w.IsMadeFor place q)
    (other : ∀ n ∈ names, path.getLast? ≠ some n) (spot : Place) (content : Bytes) :
    w'.files.reach folder path = .ok ⟨spot, some (.file content)⟩ ↔
      w.files.reach folder path = .ok ⟨spot, some (.file content)⟩ := by
  induction path generalizing folder with
  | nil =>
    obtain ⟨_, there', kept⟩ := grown.extends_files folder _ there
    simp [FileTree.reach, there, there', kept.mp rfl]
  | cons name rest ih =>
    have later : ∀ n ∈ names, rest.getLast? ≠ some n := fun n member ends =>
      other n member (by rw [List.getLast?_cons, ends]; rfl)
    rcases FileTree.dot_or_up_or_isStep name with rfl | rfl | step
    · rw [FileTree.departures_dot] at steady
      rw [FileTree.reach_dot, FileTree.reach_dot]
      exact ih there steady later
    · rw [FileTree.departures_up] at steady
      rw [FileTree.reach_up, FileTree.reach_up]
      exact ih (wellFormed.entryAt?_dropLast there)
        (fun q left => steady q (List.mem_cons_of_mem _ left)) later
    rw [FileTree.departures_step step] at steady
    by_cases short : FileTree.IsShort name
    swap
    · rw [FileTree.reach_long step short, FileTree.reach_long step short]
    cases found : w.files.entryAt? (folder ++ [name]) with
    | none =>
      refine iff_of_false (grown.reach_new step found other fun made =>
        grown.reach_made wellFormed made steady later spot content) ?_
      rw [FileTree.reach_closed step short (by simp [found]), found]
      cases rest <;> simp
    | some entry =>
      obtain ⟨entry', there', kept⟩ := grown.extends_files _ _ found
      cases entry with
      | folder =>
        rw [FileTree.reach_folder step short found,
          FileTree.reach_folder step short (there'.trans (congrArg some (kept.mp rfl)))]
        exact ih found steady later
      | link target => exact absurd found (linkless _ _)
      | file old =>
        cases rest with
        | nil =>
          have apart : ∀ n ∈ names, folder ++ [name] ≠ place ++ [n] := by
            intro n member same
            obtain rfl := List.singleton_inj.mp (List.append_inj_right' same rfl)
            exact other name member rfl
          rw [FileTree.reach_last step short, FileTree.reach_last step short,
            grown.same (by simp [found]) apart]
        | cons next rest =>
          have closed : entry' ≠ .folder := fun folder => Entry.noConfusion (kept.mpr folder)
          rw [FileTree.reach_past step short (by simpa [there'] using closed) (by simp),
            FileTree.reach_past step short (by simp [found]) (by simp)]
          simp

/-- A path that steps up from no folder that was made leads to a file that was not saved exactly as
before. -/
theorem entry_eq_file_iff (linkless : w.files.Linkless) (wellFormed : w.files.WellFormed) {p : Path}
    (there : w.files.entryAt? (w.base p) = some .folder)
    (clear : w.StepsClear place p) (other : ∀ n ∈ names, p.parts.getLast? ≠ some n) {content : Bytes} :
    w'.entry p = .ok (.file content) ↔ w.entry p = .ok (.file content) := by
  rw [entry_eq_ok_iff, entry_eq_ok_iff]
  refine exists_congr fun spot => ?_
  rw [locate_eq_reach linkless, locate_eq_reach grown.linkless, grown.base_eq]
  split
  · exact Iff.rfl
  · exact grown.reach_eq_file_iff linkless wellFormed there clear other spot content

/-- Where nothing changed on the way, a path finds what it found before. -/
theorem entry_congr (linkless : w.files.Linkless) {p : Path}
    (kept : ∀ q ∈ w.way p, w'.files.entryAt? q = w.files.entryAt? q) : w'.entry p = w.entry p := by
  rw [Workspace.entry, Workspace.entry, locate_eq_reach linkless, locate_eq_reach grown.linkless,
    grown.base_eq, FileTree.reach_congr kept]

theorem entry_congr_of_steps (linkless : w.files.Linkless) {folder : Place}
    (steps : ∀ name ∈ folder, FileTree.IsStep name)
    (kept : ∀ front, front <+: folder → w'.files.entryAt? front = w.files.entryAt? front) :
    w'.entry ⟨.slash, folder⟩ = w.entry ⟨.slash, folder⟩ := by
  refine grown.entry_congr linkless fun q passed => ?_
  obtain ⟨front, inside, spelled⟩ := FileTree.exists_front_of_mem_way steps passed
  have same : q = front := spelled
  rw [same, kept front inside]

/-- On the way to a folder that was there nothing changed. -/
theorem same_around (wellFormed : w.files.WellFormed) {folder front : Place}
    (there : w.files.entryAt? folder = some .folder) (inside : front <+: folder) :
    w'.files.entryAt? front = w.files.entryAt? front := by
  have isFolder : w.files.entryAt? front = some .folder := by
    obtain ⟨rest, rfl⟩ := inside
    by_cases last : rest = []
    · rwa [last, List.append_nil] at there
    · exact wellFormed.around last there
  refine grown.same (by simp [isFolder]) ?_
  rintro n member rfl
  exact grown.closed n member isFolder

/-- A folder that was there is found as before. -/
theorem entry_folder (linkless : w.files.Linkless) (wellFormed : w.files.WellFormed) {folder : Place}
    (steps : ∀ n ∈ folder, FileTree.IsStep n) (there : w.files.entryAt? folder = some .folder) :
    w'.entry ⟨.slash, folder⟩ = w.entry ⟨.slash, folder⟩ :=
  grown.entry_congr_of_steps linkless steps fun _ inside => grown.same_around wellFormed there inside

/-- In a folder that was there, a place that did not change is found as before. -/
theorem entry_child (linkless : w.files.Linkless) (wellFormed : w.files.WellFormed) {folder : Place}
    {name : Text} (steps : ∀ n ∈ folder ++ [name], FileTree.IsStep n)
    (there : w.files.entryAt? folder = some .folder)
    (kept : w'.files.entryAt? (folder ++ [name]) = w.files.entryAt? (folder ++ [name])) :
    w'.entry ⟨.slash, folder ++ [name]⟩ = w.entry ⟨.slash, folder ++ [name]⟩ := by
  refine grown.entry_congr_of_steps linkless steps fun front inside => ?_
  rcases List.prefix_concat_iff.mp inside with rfl | above
  · exact kept
  · exact grown.same_around wellFormed there above

theorem absolute_eq (p : Path) : w'.absolute p = w.absolute p := by
  rw [absolute, absolute, grown.current]

/-- The true path of a file is the same. -/
theorem resolve_eq (linkless : w.files.Linkless) (p : Path) : w'.resolve p = w.resolve p := by
  rw [resolve_eq_ok linkless, resolve_eq_ok grown.linkless, grown.absolute_eq]

theorem resolveNames_strict (linkless : w.files.Linkless)
    (enter enter' : List Path → Path → List Text → Resolution) {entered : List Path} {p q : Path}
    {names : List Text} (led : w.resolveNames true enter entered p names = .whole q) :
    w'.resolveNames true enter' entered p names = .whole q := by
  induction names generalizing p with
  | nil => exact led
  | cons name rest ih =>
    rw [resolveNames] at led ⊢
    by_cases up : name = Path.up
    · rw [if_pos up] at led ⊢
      exact ih led
    rw [if_neg up] at led ⊢
    dsimp only at led ⊢
    split at led
    · rename_i located
      exact absurd (locate_eq_ok linkless located).symm (linkless _ _)
    · rename_i place entry plain located
      rw [locate_eq_reach linkless] at located
      have there : ∃ entry', w'.locate (p.child name) false = .ok ⟨place, some entry'⟩ := by
        rw [locate_eq_reach grown.linkless, grown.base_eq]
        split at located
        · cases located
        · rename_i short
          rw [if_neg short]
          exact grown.extends_files.reach located
      obtain ⟨entry', located'⟩ := there
      rw [located']
      cases entry' with
      | link target => exact absurd (locate_eq_ok grown.linkless located').symm (grown.linkless _ _)
      | file content => exact ih led
      | folder => exact ih led
    · cases led
    · cases led

/-- What exists has the true path that it had. -/
theorem resolveExisting?_eq (linkless : w.files.Linkless) {p q : Path}
    (led : w.resolveExisting? p = .ok (some q)) : w'.resolveExisting? p = .ok (some q) := by
  rw [resolveExisting?] at led ⊢
  split at led
  · rename_i whole
    have kept : w'.resolution true p = w.resolution true p := by
      rw [whole]
      unfold resolution at whole ⊢
      cases depth : w.resolveDepth <;> rw [depth] at whole <;> cases w'.resolveDepth <;>
        exact grown.resolveNames_strict linkless _ _ whole
    rw [kept, whole]
    dsimp only
    rw [grown.absolute_eq, led]
  · cases led
  · cases led
  · cases led

end Change.Grown

end TestSkeleton
