import TestSkeleton.Proofs.Workspace.Leading
import TestSkeleton.Proofs.Workspace.Save
import TestSkeleton.Proofs.Workspace.Growth

/-! A file that was written reads back, also where links are on the way. -/

namespace TestSkeleton

/-- What going down by names finds in a tree: where it ends, the entry there, and where it stops, a
folder. A last link is not followed only if it is not to be. -/
def Descent.Found (t : FileTree) (followLast : Bool) : Descent → Prop
  | .ended spot => spot.entry = t.entryAt? spot.place ∧
      t.entryAt? spot.place.dropLast = some .folder ∧
      (followLast = true → ∀ target, spot.entry ≠ some (.link target))
  | .stopped folder _ _ => t.entryAt? folder = some .folder

namespace FileTree

/-- Whatever holds an entry is a folder. -/
def Standing (t : FileTree) : Prop :=
  ∀ place entry, t.entryAt? place = some entry → t.entryAt? place.dropLast = some .folder

variable {t : FileTree}

theorem standing_of_entries
    (folders : ∀ place ∈ t.entries.keys, t.entryAt? place.dropLast = some .folder) : t.Standing := by
  intro place entry found
  by_cases top : place = []
  · rw [top]
    exact entryAt?_nil t
  · exact folders place (mem_keys_of_entryAt?_eq_some top found)

theorem Standing.put (standing : t.Standing) {place : Place} {entry : Entry} (filled : place ≠ [])
    (outer : t.entryAt? place.dropLast = some .folder)
    (kept : t.entryAt? place = some .folder → entry = .folder) : (t.put place entry).Standing := by
  have folder : ∀ q, t.entryAt? q = some .folder → (t.put place entry).entryAt? q = some .folder := by
    intro q found
    rw [entryAt?_put filled]
    split
    · rename_i same
      rw [kept (same ▸ found)]
    · exact found
  intro q e found
  apply folder
  rw [entryAt?_put filled] at found
  split at found
  · rename_i same
    rw [same]
    exact outer
  · exact standing q e found

theorem Descends.found (standing : t.Standing) {followLast : Bool} {folder : Place} {names : List Text}
    {d : Descent} (way : Descends t followLast folder names d)
    (inside : t.entryAt? folder = some .folder) : d.Found t followLast := by
  induction way with
  | @here folder =>
    refine ⟨rfl, standing folder _ inside, fun _ target link => ?_⟩
    rw [inside] at link
    cases link
  | dot _ ih => exact ih inside
  | @up folder _ _ _ ih => exact ih (standing folder _ inside)
  | deeper _ _ found _ ih => exact ih found
  | @last folder name _ _ _ plain =>
    refine ⟨rfl, ?_, plain⟩
    rw [List.dropLast_concat]
    exact inside
  | link => exact inside

theorem follow_found (standing : t.Standing) {followLast : Bool} {links : Nat} {folder : Place}
    {names : List Text} (inside : t.entryAt? folder = some .folder) {spot : Spot}
    (found : t.follow followLast links folder names = .ok spot) :
    (Descent.ended spot).Found t followLast := by
  rw [follow_eq_ok_iff] at found
  induction found with
  | ended down => exact down.found standing inside
  | link down _ ih =>
    apply ih
    split
    · exact entryAt?_nil t
    · exact down.found standing inside

section Put

variable {place : Place} {content : Bytes} (filled : place ≠ [])
  (closed : t.entryAt? place ≠ some .folder) (plain : ∀ target, t.entryAt? place ≠ some (.link target))

include filled closed plain

/-- A file in a place that nothing leads through leaves every way as it was. -/
theorem follow_put {links : Nat} {folder : Place} {names : List Text} {spot : Spot}
    (found : t.follow true links folder names = .ok spot)
    (open_ : ∀ target, t.entryAt? spot.place ≠ some (.link target)) :
    (t.put place (.file content)).follow true links folder names =
      .ok ⟨spot.place, (t.put place (.file content)).entryAt? spot.place⟩ := by
  have afterwards : ∀ q, (t.put place (.file content)).entryAt? q =
      if q = place then some (.file content) else t.entryAt? q := entryAt?_put filled
  have kept : ∀ q, t.entryAt? q ≠ t.entryAt? place →
      (t.put place (.file content)).entryAt? q = t.entryAt? q := by
    intro q other
    rw [afterwards, if_neg fun same => other (congrArg t.entryAt? same)]
  apply follow_kept _ found
  · intro q member
    obtain ⟨target, link⟩ := isLink_of_mem_linksOn member
    exact kept q fun same => plain target (same.symm.trans link)
  · intro _ target
    rw [afterwards]
    split
    · exact nofun
    · exact open_ target
  · intro q inside
    rw [kept q fun same => closed (same.symm.trans inside), inside]

end Put

end FileTree

namespace Workspace

/-- A file system that a current folder stands in. -/
structure Standing (w : Workspace) : Prop where
  files : w.files.Standing
  current : w.files.entryAt? w.current = some .folder

variable {w : Workspace} {p : Path} {spot : Spot}

theorem locate_found (standing : w.Standing) {followLast : Bool}
    (located : w.locate p followLast = .ok spot) :
    (Descent.ended spot).Found w.files followLast := by
  rw [locate] at located
  split at located
  · cases located
  · refine FileTree.follow_found standing.files ?_ located
    rw [base]
    split
    · exact FileTree.entryAt?_nil w.files
    · exact standing.current

theorem filled_of_closed (found : spot.entry = w.files.entryAt? spot.place)
    (closed : spot.entry ≠ some .folder) : spot.place ≠ [] := by
  intro top
  rw [found, top] at closed
  exact closed (FileTree.entryAt?_nil w.files)

theorem Standing.put (standing : w.Standing) (entry : Entry)
    (found : (Descent.ended spot).Found w.files false) (closed : spot.entry ≠ some .folder) :
    (w.put spot.place entry).Standing := by
  obtain ⟨there, outer, -⟩ := found
  have filled := filled_of_closed there closed
  have shut : w.files.entryAt? spot.place ≠ some .folder := there ▸ closed
  refine ⟨standing.files.put filled outer fun folder => absurd folder shut, ?_⟩
  rw [entryAt?_put filled]
  have apart : w.current ≠ spot.place := fun same => shut (same ▸ standing.current)
  have current : (w.put spot.place entry).current = w.current := rfl
  rw [current, if_neg apart]
  exact standing.current

/-- A path leads to what was written where it led. -/
theorem locate_put (standing : w.Standing) {content : Bytes} (located : w.locate p = .ok spot)
    (closed : spot.entry ≠ some .folder) :
    (w.put spot.place (.file content)).locate p = .ok ⟨spot.place, some (.file content)⟩ := by
  obtain ⟨there, outer, plain⟩ := locate_found standing located
  have filled := filled_of_closed there closed
  rw [there] at closed plain
  rw [locate] at located ⊢
  split at located
  · cases located
  · rename_i short
    rw [if_neg short]
    have own : (w.files.put spot.place (.file content)).entryAt? spot.place = some (.file content) := by
      rw [FileTree.entryAt?_put filled, if_pos rfl]
    rw [← own]
    exact FileTree.follow_put filled closed (plain rfl) located (plain rfl)

end Workspace

namespace Change

variable {w w' : Workspace}

theorem standing_of_makeFolder (standing : w.Standing) {p : Path} {refusal : FolderRefusal}
    (made : (makeFolder p refusal).run w = (.ok (), w')) : w'.Standing := by
  obtain ⟨last, spot, -, -, located, missing, rfl⟩ := makeFolder_eq_ok made
  apply standing.put .folder (Workspace.locate_found standing located)
  rw [missing]
  exact nofun

/-- Making folders, whether or not it fails, leaves a file system. -/
theorem standing_of_ensureFolders (standing : w.Standing) {p : Path} {refusal : FolderRefusal}
    {result : Except FileError Unit}
    (done : (ensureFolders p refusal).run w = (result, w')) : w'.Standing :=
  ensureFolders_leads (fun w w' => w.Standing → w'.Standing) (fun _ standing => standing)
    (fun first second standing => second (first standing))
    (fun _ made standing => standing_of_makeFolder standing made) done standing

/-- A file that was written is there, with what was written. -/
theorem entry_of_writeFile (standing : w.Standing) {p : Path} {content : Bytes} {refusals : Refusals}
    (written : (writeFile p content refusals).run w = (.ok (), w')) : w'.entry p = .ok (.file content) := by
  obtain ⟨spot, located, closed, -, -, rfl⟩ := run_writeFile_eq_ok.mp written
  rw [Workspace.entry, Workspace.locate_put standing located closed]
  rfl

end Change

/-! Writing a file in a folder that is there, over whatever bears its name.

A folder that a path leads to is not made again, and the other names in it lead where they led, as long as no link
bears them. -/

namespace FileTree

variable {t : FileTree} {links : Nat} {folder : Place} {names : List Text}

/-- A way that follows a last link goes the same without following it, or ends at that link. -/
theorem Descends.false_of_true {d : Descent} (way : Descends t true folder names d) :
    Descends t false folder names d ∨
      ∃ place target, Descends t false folder names (.ended ⟨place, some (.link target)⟩) := by
  induction way with
  | here => exact .inl .here
  | dot _ ih => exact ih.imp .dot fun ⟨place, target, ends⟩ => ⟨place, target, .dot ends⟩
  | up _ ih => exact ih.imp .up fun ⟨place, target, ends⟩ => ⟨place, target, .up ends⟩
  | deeper step short found _ ih =>
    exact ih.imp (.deeper step short found) fun ⟨place, target, ends⟩ =>
      ⟨place, target, .deeper step short found ends⟩
  | last step short solid _ => exact .inl (.last step short solid nofun)
  | @link folder name rest target step short found _ =>
    cases rest with
    | nil =>
      have ends : Descends t false folder [name] _ := .last step short (by simp [found]) nofun
      exact .inr ⟨folder ++ [name], target, found ▸ ends⟩
    | cons next rest => exact .inl (.link step short found rfl)

theorem follow_false_of_true {spot : Spot} (led : t.follow true links folder names = .ok spot) :
    t.follow false links folder names = .ok spot ∨
      ∃ place target, t.follow false links folder names = .ok ⟨place, some (.link target)⟩ := by
  simp only [follow_eq_ok_iff] at led ⊢
  induction led with
  | ended down =>
    exact down.false_of_true.imp .ended fun ⟨place, target, ends⟩ => ⟨place, target, .ended ends⟩
  | link down _ ih =>
    rcases down.false_of_true with stops | ⟨place, target, ends⟩
    · exact ih.imp (.link stops) fun ⟨place, target, ends⟩ => ⟨place, target, .link stops ends⟩
    · exact .inr ⟨place, target, .ended ends⟩

end FileTree

namespace Workspace

variable {w w' : Workspace} {root : Path} {outer : Place} {name : Text}

theorem locate_false_of_true {p : Path} {spot : Spot} (located : w.locate p = .ok spot) :
    w.locate p false = .ok spot ∨ ∃ place target, w.locate p false = .ok ⟨place, some (.link target)⟩ := by
  obtain ⟨short, led⟩ := locate_eq_ok_iff.mp located
  rcases FileTree.follow_false_of_true led with same | ⟨place, target, ends⟩
  · exact .inl (locate_eq_ok_iff.mpr ⟨short, same⟩)
  · exact .inr ⟨place, target, locate_eq_ok_iff.mpr ⟨short, ends⟩⟩

/-- A name in a folder leads to what bears it, unless a link does. -/
theorem locate_child (isName : Path.IsName name) (short : FileTree.IsShort name)
    (around : w.locate root = .ok ⟨outer, some .folder⟩)
    (plain : ∀ target, w.files.entryAt? (outer ++ [name]) ≠ some (.link target)) :
    w.locate (root.child name) =
      if FileTree.pathLimit < (Utf8.encode (root.child name).text).length then .error .nameTooLong
      else .ok ⟨outer ++ [name], w.files.entryAt? (outer ++ [name])⟩ := by
  split
  · rename_i long
    rw [locate, if_pos long]
  · rename_i fits
    refine locate_true_of_false (locate_eq_ok_iff.mpr ⟨Nat.not_lt.mp fits, ?_⟩) plain
    obtain ⟨-, led⟩ := locate_eq_ok_iff.mp around
    rw [isName.child]
    exact FileTree.follow_append_of_folder isName.2.1 isName.2.2.1 short led

/-- A name in a folder leads to the same in another tree with the same entry there. -/
theorem entry_child_congr (isName : Path.IsName name) (short : FileTree.IsShort name)
    (around : w.locate root = .ok ⟨outer, some .folder⟩) (around' : w'.locate root = .ok ⟨outer, some .folder⟩)
    (plain : ∀ target, w.files.entryAt? (outer ++ [name]) ≠ some (.link target))
    (same : w'.files.entryAt? (outer ++ [name]) = w.files.entryAt? (outer ++ [name])) :
    w'.entry (root.child name) = w.entry (root.child name) := by
  rw [entry, entry, locate_child isName short around plain, locate_child isName short around' (same ▸ plain), same]

/-- A folder stays where a path leads to it when a file is put in a place of its own. -/
theorem locate_folder_put {place : Place} {content : Bytes} (filled : place ≠ [])
    (closed : w.files.entryAt? place ≠ some .folder)
    (plain : ∀ target, w.files.entryAt? place ≠ some (.link target))
    (around : w.locate root = .ok ⟨outer, some .folder⟩) :
    (w.put place (.file content)).locate root = .ok ⟨outer, some .folder⟩ := by
  have there : w.files.entryAt? outer = some .folder := (entry_of_locate around).symm
  have kept : ∀ q, w.files.entryAt? q ≠ w.files.entryAt? place →
      (w.put place (.file content)).files.entryAt? q = w.files.entryAt? q := by
    intro q other
    rw [entryAt?_put filled, if_neg fun same => other (congrArg w.files.entryAt? same)]
  have folders : ∀ q, w.files.entryAt? q = some .folder →
      (w.put place (.file content)).files.entryAt? q = some .folder :=
    fun q inside => (kept q fun same => closed (same.symm.trans inside)).trans inside
  have links : ∀ q ∈ w.linksOn root, (w.put place (.file content)).files.entryAt? q = w.files.entryAt? q := by
    intro q member
    obtain ⟨target, link⟩ := FileTree.isLink_of_mem_linksOn member
    exact kept q fun same => plain target (same.symm.trans link)
  have stays := folders outer there
  have leads : (w.put place (.file content)).locate root =
      .ok ⟨outer, (w.put place (.file content)).files.entryAt? outer⟩ :=
    locate_kept around rfl folders links fun _ target => by rw [stays]; exact nofun
  rwa [stays] at leads

end Workspace

namespace Change

variable {w : Workspace} {p : Path}

/-- A folder that is there is not made again, whatever the surroundings refuse. -/
theorem run_ensureFolder_of_folder (there : w.isFolder p = .ok true) (refusal : FolderRefusal) :
    (ensureFolder p refusal).run w = (.ok (), w) := by
  have taken : (makeFolder p refusal).run w = (.error (faultAt p .alreadyExists), w) := by
    obtain ⟨place, located⟩ := Workspace.isFolder_eq_true.mp there
    rw [run_makeFolder]
    cases p.parts.getLast? with
    | none => rfl
    | some last =>
      rcases Workspace.locate_false_of_true located with same | ⟨_, _, same⟩ <;>
        · rw [same]
          exact if_pos (.inr rfl)
  rw [run_ensureFolder, taken]
  exact if_pos ⟨nofun, there⟩

theorem run_ensureFolders_of_folder (there : w.isFolder p = .ok true) (refusal : FolderRefusal) :
    (ensureFolders p refusal).run w = (.ok (), w) := by
  have whole : (⟨p.root, p.parts.reverse.reverse⟩ : Path) = p := by rw [List.reverse_reverse]
  have made := run_ensureFolder_of_folder (whole.symm ▸ there) refusal
  rw [ensureFolders]
  cases back : p.parts.reverse with
  | nil =>
    rw [back] at made
    exact made
  | cons name outer =>
    rw [back] at made
    rw [ensureFoldersBack, run_tryCatch, made]

end Change

end TestSkeleton
