import Mathlib.Data.List.Induction
import TestSkeleton.Proofs.Workspace.Path
import TestSkeleton.Workspace.Resolve

/-! Trees without links, where the true path of a file follows from its names alone. -/

namespace TestSkeleton

def Entry.isLink : Entry → Bool
  | .link _ => true
  | _ => false

namespace FileTree

def Linkless (t : FileTree) : Prop := ∀ place target, t.entryAt? place ≠ some (.link target)

theorem linkless_of_entries {t : FileTree} (plain : t.entries.all fun entry => !entry.2.isLink) :
    t.Linkless := by
  intro place target found
  unfold entryAt? at found
  split at found
  · cases found
  · obtain ⟨front, back, shape, -⟩ := List.lookup_eq_some_iff.mp found
    rw [List.all_eq_true] at plain
    have none := plain (place, .link target) (by rw [shape]; simp)
    cases none

/-- Where names lead from a folder when no entry is a link. -/
def reach (t : FileTree) (folder : Place) : List Text → Except FileFault Spot
  | [] => .ok ⟨folder, t.entryAt? folder⟩
  | name :: rest =>
    if name = ['.'] then reach t folder rest
    else if name = Path.up then reach t folder.dropLast rest
    else if nameLimit < (Utf8.encode name).length then .error .nameTooLong
    else match t.entryAt? (folder ++ [name]) with
      | some .folder => reach t (folder ++ [name]) rest
      | entry =>
        if rest.isEmpty then .ok ⟨folder ++ [name], entry⟩
        else .error (if entry.isSome then .notFolder else .notFound)

/-- Whether a name is one that a step down takes as it stands. -/
def IsStep (name : Text) : Prop := name ≠ ['.'] ∧ name ≠ Path.up

def IsShort (name : Text) : Prop := (Utf8.encode name).length ≤ nameLimit

theorem dot_or_up_or_isStep (name : Text) : name = ['.'] ∨ name = Path.up ∨ IsStep name := by
  by_cases dot : name = ['.']
  · exact .inl dot
  · by_cases up : name = Path.up
    · exact .inr (.inl up)
    · exact .inr (.inr ⟨dot, up⟩)

section Step

variable {t : FileTree} {folder : Place} {name : Text} {rest : List Text}

theorem reach_dot : t.reach folder (['.'] :: rest) = t.reach folder rest := by
  rw [reach, if_pos rfl]

theorem reach_up : t.reach folder (Path.up :: rest) = t.reach folder.dropLast rest := by
  rw [reach, if_neg (by decide), if_pos rfl]

theorem reach_long (step : IsStep name) (long : ¬IsShort name) :
    t.reach folder (name :: rest) = .error .nameTooLong := by
  rw [reach, if_neg step.1, if_neg step.2, if_pos (Nat.not_le.mp long)]

theorem reach_folder (step : IsStep name) (short : IsShort name)
    (inner : t.entryAt? (folder ++ [name]) = some .folder) :
    t.reach folder (name :: rest) = t.reach (folder ++ [name]) rest := by
  rw [reach, if_neg step.1, if_neg step.2, if_neg (Nat.not_lt.mpr short), inner]

/-- Where no folder is, the way ends: with the last name or with a fault. -/
theorem reach_closed (step : IsStep name) (short : IsShort name)
    (closed : t.entryAt? (folder ++ [name]) ≠ some .folder) :
    t.reach folder (name :: rest) =
      if rest.isEmpty then .ok ⟨folder ++ [name], t.entryAt? (folder ++ [name])⟩
      else .error (if (t.entryAt? (folder ++ [name])).isSome then .notFolder else .notFound) := by
  rw [reach, if_neg step.1, if_neg step.2, if_neg (Nat.not_lt.mpr short)]
  split
  · exact absurd ‹_› closed
  · rfl

theorem reach_last (step : IsStep name) (short : IsShort name) :
    t.reach folder [name] = .ok ⟨folder ++ [name], t.entryAt? (folder ++ [name])⟩ := by
  by_cases inner : t.entryAt? (folder ++ [name]) = some .folder
  · rw [reach_folder step short inner, reach]
  · rw [reach_closed step short inner, List.isEmpty_nil, if_pos rfl]

/-- Behind a name that is no folder, more names lead to a fault. -/
theorem reach_past (step : IsStep name) (short : IsShort name)
    (closed : t.entryAt? (folder ++ [name]) ≠ some .folder) (more : rest ≠ []) :
    t.reach folder (name :: rest) =
      .error (if (t.entryAt? (folder ++ [name])).isSome then .notFolder else .notFound) := by
  rw [reach_closed step short closed, if_neg (by simpa using more)]

end Step

theorem reach_eq_ok {t : FileTree} {folder : Place} {names : List Text} {spot : Spot}
    (led : t.reach folder names = .ok spot) : spot.entry = t.entryAt? spot.place := by
  induction names generalizing folder with
  | nil =>
    cases led
    rfl
  | cons name rest ih =>
    rcases dot_or_up_or_isStep name with rfl | rfl | step
    · exact ih (reach_dot ▸ led)
    · exact ih (reach_up ▸ led)
    by_cases short : IsShort name
    · by_cases inner : t.entryAt? (folder ++ [name]) = some .folder
      · exact ih (reach_folder step short inner ▸ led)
      · rw [reach_closed step short inner] at led
        split at led
        · cases led
          rfl
        · cases led
    · rw [reach_long step short] at led
      cases led

theorem reach_ne_linkLoop {t : FileTree} {folder : Place} {names : List Text} :
    t.reach folder names ≠ .error .linkLoop := by
  induction names generalizing folder with
  | nil => simp [reach]
  | cons name rest ih =>
    rcases dot_or_up_or_isStep name with rfl | rfl | step
    · exact reach_dot ▸ ih
    · exact reach_up ▸ ih
    by_cases short : IsShort name
    · by_cases inner : t.entryAt? (folder ++ [name]) = some .folder
      · exact reach_folder step short inner ▸ ih
      · rw [reach_closed step short inner]
        split
        · simp
        · split <;> simp
    · simp [reach_long step short]

section Between

variable {name : Text} {rest : List Text}

/-- What lies between the first and the last of some names, told of the first name and the others. -/
theorem forall_between_cons {P : List Text → Prop} :
    (∀ front back, name :: rest = front ++ back → front ≠ [] → back ≠ [] → P front) ↔
      (rest ≠ [] → P [name]) ∧
        ∀ front back, rest = front ++ back → front ≠ [] → back ≠ [] → P (name :: front) := by
  constructor
  · intro all
    exact ⟨all [name] rest rfl (by simp), fun front back shape _ =>
      all (name :: front) back (by rw [shape]; rfl) (by simp)⟩
  · rintro ⟨first, others⟩ front back shape filled more
    obtain ⟨head, front, rfl⟩ := List.exists_cons_of_ne_nil filled
    obtain ⟨rfl, inner⟩ := List.cons.inj shape
    by_cases alone : front = []
    · subst alone
      exact first (by rwa [inner])
    · exact others front back inner alone more

end Between

/-- Names lead through folders to the place that they spell. -/
theorem reach_eq_ok_iff {t : FileTree} {folder : Place} {names : List Text}
    (steps : ∀ name ∈ names, IsStep name) {spot : Spot} :
    t.reach folder names = .ok spot ↔
      (∀ name ∈ names, IsShort name) ∧
      (∀ front rest, names = front ++ rest → front ≠ [] → rest ≠ [] →
        t.entryAt? (folder ++ front) = some .folder) ∧
      spot = ⟨folder ++ names, t.entryAt? (folder ++ names)⟩ := by
  induction names generalizing folder with
  | nil =>
    rw [reach, Except.ok.injEq, List.append_nil, eq_comm]
    refine ⟨fun same => ⟨by simp, fun front rest shape filled => ?_, same⟩, fun whole => whole.2.2⟩
    exact absurd (List.append_eq_nil_iff.mp shape.symm).1 filled
  | cons name rest ih =>
    have step := steps name List.mem_cons_self
    have later := fun n member => steps n (List.mem_cons_of_mem name member)
    rw [List.forall_mem_cons, forall_between_cons]
    by_cases short : IsShort name
    · have onward : ∀ names, folder ++ [name] ++ names = folder ++ name :: names := by simp
      by_cases inner : t.entryAt? (folder ++ [name]) = some .folder
      · rw [reach_folder step short inner, ih later]
        simp only [onward, short, inner, true_and, implies_true]
      · rw [reach_closed step short inner]
        cases rest with
        | nil => simp [short, eq_comm]
        | cons next rest => simp [inner]
    · simp [reach_long step short, short]

/-- The places that names pass from a folder on, steps up taken by names. -/
def way (folder : Place) : List Text → List Place
  | [] => [folder]
  | name :: rest =>
    if name = ['.'] then way folder rest
    else if name = Path.up then way folder.dropLast rest
    else (folder ++ [name]) :: way (folder ++ [name]) rest

/-- The places from which names step up. -/
def departures (folder : Place) : List Text → List Place
  | [] => []
  | name :: rest =>
    if name = ['.'] then departures folder rest
    else if name = Path.up then folder :: departures folder.dropLast rest
    else departures (folder ++ [name]) rest

section Passed

variable {folder : Place} {name : Text} {rest : List Text}

theorem way_dot : way folder (['.'] :: rest) = way folder rest := by
  rw [way, if_pos rfl]

theorem way_up : way folder (Path.up :: rest) = way folder.dropLast rest := by
  rw [way, if_neg (by decide), if_pos rfl]

theorem way_step (step : IsStep name) :
    way folder (name :: rest) = (folder ++ [name]) :: way (folder ++ [name]) rest := by
  rw [way, if_neg step.1, if_neg step.2]

theorem departures_dot : departures folder (['.'] :: rest) = departures folder rest := by
  rw [departures, if_pos rfl]

theorem departures_up :
    departures folder (Path.up :: rest) = folder :: departures folder.dropLast rest := by
  rw [departures, if_neg (by decide), if_pos rfl]

theorem departures_step (step : IsStep name) :
    departures folder (name :: rest) = departures (folder ++ [name]) rest := by
  rw [departures, if_neg step.1, if_neg step.2]

end Passed

theorem departures_append_step {folder : Place} {names : List Text} {last : Text}
    (step : IsStep last) : departures folder (names ++ [last]) = departures folder names := by
  induction names generalizing folder with
  | nil => rw [List.nil_append, departures_step step, departures, departures]
  | cons name rest ih => simp only [List.cons_append, departures, ih]

theorem exists_front_of_mem_way {folder : Place} {names : List Text}
    (steps : ∀ name ∈ names, IsStep name) {q : Place} (passed : q ∈ way folder names) :
    ∃ front, front <+: names ∧ q = folder ++ front := by
  induction names generalizing folder with
  | nil => exact ⟨[], List.prefix_rfl, by simpa [way] using passed⟩
  | cons name rest ih =>
    rw [way_step (steps name List.mem_cons_self)] at passed
    rcases List.mem_cons.mp passed with rfl | later
    · exact ⟨[name], by simp, rfl⟩
    · obtain ⟨front, inside, rfl⟩ := ih (fun n member => steps n (List.mem_cons_of_mem _ member)) later
      exact ⟨name :: front, List.cons_prefix_cons.mpr ⟨rfl, inside⟩, by simp⟩

/-- Where two trees agree along the way, names lead to the same end. -/
theorem reach_congr {t t' : FileTree} {folder : Place} {names : List Text}
    (same : ∀ q ∈ way folder names, t.entryAt? q = t'.entryAt? q) :
    t.reach folder names = t'.reach folder names := by
  induction names generalizing folder with
  | nil => rw [reach, reach, same folder (by simp [way])]
  | cons name rest ih =>
    rcases dot_or_up_or_isStep name with rfl | rfl | step
    · rw [reach_dot, reach_dot, ih (way_dot ▸ same)]
    · rw [reach_up, reach_up, ih (way_up ▸ same)]
    · rw [way_step step] at same
      have onward : t.reach (folder ++ [name]) rest = t'.reach (folder ++ [name]) rest :=
        ih fun q later => same q (List.mem_cons_of_mem _ later)
      rw [reach, reach, same _ List.mem_cons_self, onward, if_neg step.1, if_neg step.2,
        if_neg step.1, if_neg step.2]

theorem descend_eq_reach {t : FileTree} (linkless : t.Linkless) (followLast : Bool) (folder : Place)
    (names : List Text) :
    t.descend followLast folder names = (t.reach folder names).map .ended := by
  induction names generalizing folder with
  | nil => rfl
  | cons name rest ih =>
    rw [descend]
    rcases dot_or_up_or_isStep name with rfl | rfl | step
    · rw [if_pos rfl, reach_dot, ih]
    · rw [if_neg (by decide), if_pos rfl, reach_up, ih]
    rw [if_neg step.1, if_neg step.2]
    by_cases short : IsShort name
    · rw [if_neg (Nat.not_lt.mpr short)]
      dsimp only
      by_cases inner : t.entryAt? (folder ++ [name]) = some .folder
      · rw [reach_folder step short inner, inner]
        exact ih _
      · rw [reach_closed step short inner]
        cases found : t.entryAt? (folder ++ [name]) with
        | none => cases rest <;> rfl
        | some entry =>
          cases entry with
          | file content => cases rest <;> rfl
          | folder => exact absurd found inner
          | link target => exact absurd found (linkless _ _)
    · rw [reach_long step short, if_pos (Nat.not_le.mp short)]
      rfl

theorem follow_eq_reach {t : FileTree} (linkless : t.Linkless) (followLast : Bool) (links : Nat)
    (folder : Place) (names : List Text) :
    t.follow followLast links folder names = t.reach folder names := by
  rw [follow, descend_eq_reach linkless]
  cases t.reach folder names <;> rfl

end FileTree

namespace Path

/-- A path with names behind it, steps up taken by names alone. -/
def extend (p : Path) (names : List Text) : Path :=
  names.foldl (fun p name => if name = up then p.outer else p.child name) p

theorem extend_append (p : Path) (front back : List Text) :
    p.extend (front ++ back) = (p.extend front).extend back := List.foldl_append

theorem extend_names {names : List Text} (valid : ∀ name ∈ names, IsName name) (p : Path) :
    p.extend names = ⟨p.root, p.parts ++ names⟩ := by
  induction names generalizing p with
  | nil => simp [extend]
  | cons name names ih =>
    have isName := valid name List.mem_cons_self
    have rest := ih (fun n member => valid n (List.mem_cons_of_mem _ member)) (p.child name)
    rw [isName.child] at rest
    rw [extend, List.foldl_cons, if_neg isName.2.2.1, ← extend, isName.child, rest]
    simp

theorem AreParts.extend {p : Path} (valid : AreParts p.parts) (names : List Text) :
    AreParts (p.extend names).parts := by
  induction names generalizing p with
  | nil => exact valid
  | cons name names ih =>
    rw [Path.extend, List.foldl_cons, ← Path.extend]
    apply ih
    have up : AreParts [Path.up] := by
      intro n member
      rw [List.mem_singleton.mp member]
      decide
    split
    · rw [Path.outer]
      split
      · split
        · exact valid
        · exact up
      · split
        · exact List.forall_mem_append.mpr ⟨valid, up⟩
        · exact fun n member => valid n (List.dropLast_subset _ member)
    · rw [Path.child, Path.append]
      split
      · exact areParts_names name
      · exact List.forall_mem_append.mpr ⟨valid, areParts_names name⟩

theorem AreParts.root_extend {names : List Text} (valid : AreParts names) (p : Path) :
    (p.extend names).root = p.root := by
  induction names generalizing p with
  | nil => rfl
  | cons name names ih =>
    rw [Path.extend, List.foldl_cons, ← Path.extend,
      ih fun n member => valid n (List.mem_cons_of_mem _ member)]
    split
    · rw [Path.outer]
      split
      · split
        · rfl
        · rename_i relative
          exact (Classical.not_not.mp fun other => relative (decide_eq_true other)).symm
      · split <;> rfl
    · rename_i up
      obtain ⟨filled, dot, plain⟩ := valid name List.mem_cons_self
      rw [IsName.child ⟨filled, dot, up, plain⟩]

end Path

namespace Workspace

/-- Once steps up are taken, only names of entries are left. -/
theorem isName_withoutSteps {names : List Text} (valid : Path.AreParts names) :
    ∀ name ∈ withoutSteps names, Path.IsName name := by
  induction names using List.reverseRecOn with
  | nil => exact fun name member => absurd member List.not_mem_nil
  | append_singleton names last ih =>
    have above := ih fun name member => valid name (List.mem_append_left _ member)
    rw [withoutSteps, List.foldl_append, ← withoutSteps, List.foldl_cons, List.foldl_nil]
    split
    · exact fun name member => above name (List.dropLast_subset _ member)
    · rename_i other
      refine List.forall_mem_append.mpr ⟨above, fun name member => ?_⟩
      obtain ⟨filled, dot, plain⟩ := valid last (by simp)
      rw [List.mem_singleton.mp member]
      exact ⟨filled, dot, other, plain⟩

theorem withoutSteps_append_names (parts : List Text) {names : List Text}
    (valid : ∀ name ∈ names, Path.IsName name) :
    withoutSteps (parts ++ names) = withoutSteps parts ++ names := by
  rw [withoutSteps, List.foldl_append, ← withoutSteps]
  generalize withoutSteps parts = place
  induction names generalizing place with
  | nil => simp
  | cons name names ih =>
    have isName := valid name List.mem_cons_self
    rw [List.foldl_cons, if_neg isName.2.2.1,
      ih (fun n member => valid n (List.mem_cons_of_mem _ member))]
    simp

/-- Names behind a path stay behind its absolute form. -/
theorem absolute_append_names (w : Workspace) (root : PathRoot) (parts : List Text)
    {names : List Text} (valid : ∀ name ∈ names, Path.IsName name) :
    w.absolute ⟨root, parts ++ names⟩ =
      ⟨(w.absolute ⟨root, parts⟩).root, (w.absolute ⟨root, parts⟩).parts ++ names⟩ := by
  cases root with
  | relative =>
    simp only [absolute]
    rw [← List.append_assoc, withoutSteps_append_names _ valid]
  | slash =>
    simp only [absolute]
    rw [withoutSteps_append_names _ valid]
  | doubleSlash =>
    simp only [absolute]
    rw [withoutSteps_append_names _ valid]

/-- Whether a place can be looked for: neither its names nor its whole path are too long. -/
def IsWithin (place : Place) : Prop :=
  (Utf8.encode (Path.text ⟨.slash, place⟩)).length ≤ FileTree.pathLimit ∧
    ∀ name ∈ place, FileTree.IsShort name

/-- A name further up that is no longer than the last one can be looked for as well. -/
theorem IsWithin.earlier {front rest : Place} {name other : Text}
    (within : IsWithin (front ++ rest ++ [name]))
    (shorter : (Utf8.encode other).length ≤ (Utf8.encode name).length) :
    IsWithin (front ++ [other]) := by
  obtain ⟨path, names⟩ := within
  rw [Path.text_append_name, List.flatMap_append] at path
  rw [IsWithin, Path.text_append_name]
  simp only [Utf8.encode, List.flatMap_append, List.length_append] at path shorter ⊢
  refine ⟨by omega, fun n member => ?_⟩
  rcases List.mem_append.mp member with above | last
  · exact names n (by simp [above])
  · rw [List.mem_singleton.mp last]
    exact Nat.le_trans shorter (names name (by simp))

theorem IsWithin.sibling {place : Place} {name other : Text} (within : IsWithin (place ++ [name]))
    (shorter : (Utf8.encode other).length ≤ (Utf8.encode name).length) :
    IsWithin (place ++ [other]) :=
  IsWithin.earlier (by rwa [List.append_nil]) shorter

theorem IsWithin.outer {place : Place} {name : Text} (within : IsWithin (place ++ [name])) :
    IsWithin place := by
  obtain ⟨path, names⟩ := within
  refine ⟨?_, fun n member => names n (List.mem_append_left _ member)⟩
  cases ends : place.getLast? with
  | none =>
    rw [List.getLast?_eq_none_iff.mp ends]
    decide
  | some last =>
    obtain ⟨outer, rfl⟩ := List.getLast?_eq_some_iff.mp ends
    rw [Path.text_append_name, List.flatMap_append] at path
    rw [Path.text_append_name]
    simp only [Utf8.encode, List.flatMap_append, List.flatMap_cons, List.flatMap_nil,
      List.length_append, List.append_nil] at path ⊢
    omega

theorem IsWithin.around {front rest : Place} (within : IsWithin (front ++ rest)) : IsWithin front := by
  induction rest using List.reverseRecOn with
  | nil => rwa [List.append_nil] at within
  | append_singleton rest name ih => exact ih (by rw [← List.append_assoc] at within; exact within.outer)

section Linkless

variable {w : Workspace} (linkless : w.files.Linkless)

include linkless

theorem locate_eq_reach (p : Path) (followLast : Bool) :
    w.locate p followLast =
      if FileTree.pathLimit < (Utf8.encode p.text).length then .error .nameTooLong
      else w.files.reach (w.base p) p.parts := by
  rw [locate, FileTree.follow_eq_reach linkless]

theorem locate_eq_ok {p : Path} {followLast : Bool} {spot : Spot}
    (located : w.locate p followLast = .ok spot) : spot.entry = w.files.entryAt? spot.place := by
  rw [locate_eq_reach linkless] at located
  split at located
  · cases located
  · exact FileTree.reach_eq_ok located

/-- The path of a place leads there when all around it are folders. -/
theorem locate_place {place : Place} (steps : ∀ name ∈ place, FileTree.IsStep name)
    (followLast : Bool) {spot : Spot} :
    w.locate ⟨.slash, place⟩ followLast = .ok spot ↔
      IsWithin place ∧
      (∀ front rest, place = front ++ rest → rest ≠ [] →
        w.files.entryAt? front = some .folder) ∧
      spot = ⟨place, w.files.entryAt? place⟩ := by
  have base : w.base ⟨.slash, place⟩ = [] := rfl
  rw [locate_eq_reach linkless, base]
  by_cases long : FileTree.pathLimit < (Utf8.encode (Path.text ⟨.slash, place⟩)).length
  · rw [if_pos long]
    exact ⟨fun led => (by cases led), fun whole => absurd whole.1.1 (Nat.not_le.mpr long)⟩
  · rw [if_neg long, FileTree.reach_eq_ok_iff steps, IsWithin, and_assoc]
    simp only [Nat.not_lt.mp long, List.nil_append, true_and]
    refine and_congr_right fun _ => and_congr_left fun _ => ⟨fun inner front rest shape more => ?_,
      fun inner front rest shape _ more => inner front rest shape more⟩
    by_cases top : front = []
    · rw [top]
      rfl
    · exact inner front rest shape top more

theorem entry_ne_linkLoop {p : Path} : w.entry p ≠ .error .linkLoop := by
  have located : w.locate p ≠ .error .linkLoop := by
    rw [locate_eq_reach linkless]
    split
    · simp
    · exact FileTree.reach_ne_linkLoop
  unfold entry
  cases found : w.locate p with
  | error e =>
    intro loop
    cases loop
    exact located found
  | ok spot =>
    obtain ⟨place, there⟩ := spot
    cases there <;> intro loop <;> cases loop

theorem resolveNames_eq_whole (enter : List Path → Path → List Text → Resolution)
    (entered : List Path) (p : Path) (names : List Text) :
    w.resolveNames false enter entered p names = .whole (p.extend names) := by
  induction names generalizing p with
  | nil => rfl
  | cons name rest ih =>
    rw [resolveNames]
    by_cases steps : name = Path.up
    · rw [if_pos steps, ih, Path.extend, Path.extend, List.foldl_cons, if_pos steps]
    have onward : p.extend (name :: rest) = (p.child name).extend rest := by
      rw [Path.extend, Path.extend, List.foldl_cons, if_neg steps]
    rw [if_neg steps, onward, ← ih]
    dsimp only
    split
    · rename_i place target located
      exact absurd (locate_eq_ok linkless located).symm (linkless _ _)
    · rfl
    · rfl
    · rfl

/-- Without links the true path is the absolute one, steps up taken by names. -/
theorem resolve_eq_ok (p : Path) :
    w.resolve p = .ok (w.absolute
      ((⟨if p.isAbsolute then .slash else .relative, []⟩ : Path).extend p.parts)) := by
  have whole : w.resolution false p =
      .whole ((⟨if p.isAbsolute then .slash else .relative, []⟩ : Path).extend p.parts) := by
    unfold resolution
    cases w.resolveDepth <;> exact resolveNames_eq_whole linkless _ _ _ _
  rw [resolve, whole]
  dsimp only
  split
  · rename_i loop
    exact absurd loop (entry_ne_linkLoop linkless)
  · rfl

/-- A true path is spelled with names of entries, when the current folder is. -/
theorem isName_of_resolve (current : ∀ name ∈ w.current, Path.IsName name) {p q : Path}
    (whole : w.resolve p = .ok q) : ∀ name ∈ q.parts, Path.IsName name := by
  rw [resolve_eq_ok linkless, Except.ok.injEq] at whole
  have none : Path.AreParts [] := fun name member => absurd member List.not_mem_nil
  have inside := fun root => Path.AreParts.extend (p := ⟨root, []⟩) none p.parts
  have outside : Path.AreParts w.current := fun name member =>
    ⟨(current name member).1, (current name member).2.1, (current name member).2.2.2⟩
  rw [← whole, absolute]
  split
  · exact isName_withoutSteps (List.forall_mem_append.mpr ⟨outside, inside _⟩)
  · exact isName_withoutSteps (inside _)

/-- Where every entry must exist, the path is the same. -/
theorem resolveNames_strict {enter : List Path → Path → List Text → Resolution}
    {entered : List Path} {p q : Path} {names : List Text}
    (led : w.resolveNames true enter entered p names = .whole q) : q = p.extend names := by
  induction names generalizing p with
  | nil => exact (Resolution.whole.inj led).symm
  | cons name rest ih =>
    rw [resolveNames] at led
    rw [Path.extend, List.foldl_cons, ← Path.extend]
    by_cases up : name = Path.up
    · rw [if_pos up] at led ⊢
      exact ih led
    rw [if_neg up] at led ⊢
    dsimp only at led
    split at led
    · rename_i located
      exact absurd (locate_eq_ok linkless located).symm (linkless _ _)
    · exact ih led
    · cases led
    · cases led

theorem resolve_of_existing {p q : Path} (led : w.resolveExisting? p = .ok (some q)) :
    w.resolve p = .ok q := by
  rw [resolveExisting?] at led
  split at led
  · rename_i q' whole
    obtain rfl := Option.some.inj (Except.ok.inj led)
    rw [resolve_eq_ok linkless]
    unfold resolution at whole
    cases depth : w.resolveDepth <;> rw [depth] at whole
    · rw [resolveNames_strict linkless whole]
    · rw [resolveNames_strict linkless whole]
  · cases led
  · cases led
  · cases led

/-- The true path of an absolute path without steps up is spelled with the same names. -/
theorem resolve_names {p : Path} (absolute : p.isAbsolute = true)
    (names : ∀ name ∈ p.parts, Path.IsName name) : w.resolve p = .ok ⟨.slash, p.parts⟩ := by
  have kept := withoutSteps_append_names [] names
  rw [resolve_eq_ok linkless, if_pos absolute, Path.extend_names names, Workspace.absolute]
  exact congrArg (fun place => Except.ok (⟨.slash, place⟩ : Path)) kept

/-- A true path begins at the topmost folder. -/
theorem root_of_resolve {p q : Path} (valid : Path.AreParts p.parts) (whole : w.resolve p = .ok q) :
    q.root = .slash := by
  rw [resolve_eq_ok linkless, Except.ok.injEq] at whole
  rw [← whole, absolute, valid.root_extend]
  cases p.isAbsolute <;> rfl

theorem resolve_place {place : Place} (names : ∀ name ∈ place, Path.IsName name) :
    w.resolve ⟨.slash, place⟩ = .ok ⟨.slash, place⟩ :=
  resolve_names linkless (by rfl) names

end Linkless

end Workspace

end TestSkeleton
