import Mathlib.Data.List.Perm.Subperm
import Mathlib.Data.Nat.Find
import TestSkeleton.Proofs.Workspace.Leading
import TestSkeleton.Workspace.Resolve

/-! The true path of what a path leads to: the place where it is.

Following a path puts the names of a link's target in front of the names behind the link. Finding the true
path replaces every link on its own, inside out, and keeps count of the links that are being replaced. -/

namespace TestSkeleton

open Text

namespace FileTree

variable {t : FileTree} {followLast : Bool} {links : Nat} {folder : Place} {names : List Text}

/-- More links than needed make no difference. -/
theorem Follows.mono {spot : Spot} (way : Follows t followLast links folder names spot) {more : Nat}
    (enough : links ≤ more) : Follows t followLast more folder names spot := by
  induction way generalizing more with
  | ended down => exact .ended down
  | link down _ ih =>
    obtain ⟨more, rfl⟩ := Nat.exists_eq_add_of_le' (Nat.one_le_of_lt enough)
    exact .link down (ih (Nat.le_of_succ_le_succ enough))

/-- A path leads to one place. -/
theorem Follows.unique {spot spot' : Spot} {links' : Nat} (way : Follows t followLast links folder names spot)
    (way' : Follows t followLast links' folder names spot') : spot = spot' := by
  have led := follow_eq_ok_iff.mpr (way.mono (Nat.le_max_left links links'))
  have led' := follow_eq_ok_iff.mpr (way'.mono (Nat.le_max_right links links'))
  exact Except.ok.inj (led.symm.trans led')

theorem Follows.eq_of_nil {spot : Spot} (way : Follows t followLast links folder [] spot) :
    spot = ⟨folder, t.entryAt? folder⟩ := by
  have stays : Follows t followLast links folder [] ⟨folder, t.entryAt? folder⟩ := .ended .here
  exact way.unique stays

/-- A way by names and more names stops at a link among the first, or comes to a place from where the
others lead on. -/
theorem Descends.split {front rest : List Text} {d : Descent} (wellFormed : t.WellFormed)
    (closed : t.entryAt? folder = some .folder) (way : Descends t true folder (front ++ rest) d) :
    (∃ start target behind, Descends t true folder front (.stopped start target behind) ∧
      d = .stopped start target (behind ++ rest)) ∨
    ∃ place, Descends t true folder front (.ended ⟨place, t.entryAt? place⟩) ∧
      Descends t true place rest d ∧ (rest ≠ [] → t.entryAt? place = some .folder) := by
  induction front generalizing folder with
  | nil => exact .inr ⟨folder, .here, way, fun _ => closed⟩
  | cons name front ih =>
    generalize shape : name :: front ++ rest = whole at way
    cases way with
    | here => cases shape
    | dot inside =>
      cases shape
      rcases ih closed inside with ⟨start, target, behind, stops, same⟩ | ⟨place, ends, later, isFolder⟩
      · exact .inl ⟨start, target, behind, .dot stops, same⟩
      · exact .inr ⟨place, .dot ends, later, isFolder⟩
    | up inside =>
      cases shape
      rcases ih (wellFormed.entryAt?_dropLast closed) inside with
        ⟨start, target, behind, stops, same⟩ | ⟨place, ends, later, isFolder⟩
      · exact .inl ⟨start, target, behind, .up stops, same⟩
      · exact .inr ⟨place, .up ends, later, isFolder⟩
    | deeper step short found inside =>
      cases shape
      rcases ih found inside with ⟨start, target, behind, stops, same⟩ | ⟨place, ends, later, isFolder⟩
      · exact .inl ⟨start, target, behind, .deeper step short found stops, same⟩
      · exact .inr ⟨place, .deeper step short found ends, later, isFolder⟩
    | last step short solid plain =>
      obtain ⟨rfl, none⟩ := List.cons.inj shape
      obtain ⟨rfl, rfl⟩ := List.append_eq_nil_iff.mp none
      exact .inr ⟨_, .last step short solid plain, .here, fun filled => absurd rfl filled⟩
    | link step short found more =>
      cases shape
      exact .inl ⟨_, _, front, .link step short found (Bool.and_false _), rfl⟩

theorem isFolder_stopped {start : Place} {target : Text} {rest : List Text} (wellFormed : t.WellFormed)
    (closed : t.entryAt? folder = some .folder)
    (way : Descends t followLast folder names (.stopped start target rest)) :
    t.entryAt? start = some .folder := by
  generalize shape : Descent.stopped start target rest = d at way
  induction way with
  | here | last => cases shape
  | dot _ ih => exact ih closed shape
  | up _ ih => exact ih (wellFormed.entryAt?_dropLast closed) shape
  | deeper _ _ found _ ih => exact ih found shape
  | link =>
    cases shape
    exact closed

theorem isFolder_origin {start : Place} (closed : t.entryAt? start = some .folder) (target : Text) :
    t.entryAt? (if (Path.read target).isAbsolute then [] else start) = some .folder := by
  split
  · rfl
  · exact closed

/-- A way by names and more names comes to a place by the first, and goes on from there by the others. -/
theorem Follows.split {front rest : List Text} {spot : Spot} (wellFormed : t.WellFormed)
    (closed : t.entryAt? folder = some .folder) (way : Follows t true links folder (front ++ rest) spot) :
    ∃ place, Follows t true links folder front ⟨place, t.entryAt? place⟩ ∧
      Follows t true links place rest spot ∧ (rest ≠ [] → t.entryAt? place = some .folder) := by
  generalize shape : front ++ rest = whole at way
  induction way generalizing front with
  | ended down =>
    subst shape
    rcases down.split wellFormed closed with ⟨_, _, _, _, same⟩ | ⟨place, ends, later, isFolder⟩
    · cases same
    · exact ⟨place, .ended ends, .ended later, isFolder⟩
  | @link _ _ start _ _ target _ down behind ih =>
    subst shape
    rcases down.split wellFormed closed with ⟨_, _, more, stops, same⟩ | ⟨place, ends, later, isFolder⟩
    · obtain ⟨rfl, rfl, rfl⟩ := Descent.stopped.inj same
      obtain ⟨place, first, second, isFolder⟩ := ih
        (isFolder_origin (isFolder_stopped wellFormed closed stops) target) (List.append_assoc _ _ _)
      exact ⟨place, .link stops first, second.mono (Nat.le_succ _), isFolder⟩
    · exact ⟨place, .ended ends, .link later behind, isFolder⟩

/-- Above the path of an entry is the path of the folder around. -/
theorem WellFormed.outer_path {place : Place} {entry : Entry} (wellFormed : t.WellFormed)
    (found : t.entryAt? place = some entry) : (⟨.slash, place⟩ : Path).outer = ⟨.slash, place.dropLast⟩ := by
  rw [Path.outer]
  cases ends : place.getLast? with
  | none => simp [List.getLast?_eq_none_iff.mp ends, Path.isAbsolute]
  | some last =>
    have isName := wellFormed.isName_of_entry found last (List.mem_of_getLast? ends)
    exact if_neg isName.2.2.1

/-- From folder to folder names lead to what they spell. -/
theorem descends_folder {rest : Place} (wellFormed : t.WellFormed)
    (short : ∀ name ∈ rest, IsShort name) (found : t.entryAt? (folder ++ rest) = some .folder) :
    Descends t followLast folder rest (.ended ⟨folder ++ rest, some .folder⟩) := by
  induction rest generalizing folder with
  | nil =>
    rw [List.append_nil] at found ⊢
    rw [← found]
    exact .here
  | cons name rest ih =>
    have isName := wellFormed.isName_of_entry found name (by simp)
    have shape : folder ++ name :: rest = folder ++ [name] ++ rest := by simp
    rw [shape] at found ⊢
    have here : t.entryAt? (folder ++ [name]) = some .folder := by
      by_cases last : rest = []
      · rwa [last, List.append_nil] at found
      · exact wellFormed.around last found
    exact .deeper ⟨isName.2.1, isName.2.2.1⟩ (short name List.mem_cons_self) here
      (ih (fun n member => short n (List.mem_cons_of_mem _ member)) found)

/-- A way that is followed to its end does not end at a link. -/
theorem Descends.plain {d : Descent} (wellFormed : t.WellFormed) (closed : t.entryAt? folder = some .folder)
    (way : Descends t true folder names d) {spot : Spot} (ends : d = .ended spot) (target : Text) :
    spot.entry ≠ some (.link target) := by
  induction way with
  | here =>
    cases ends
    rw [closed]
    simp
  | dot _ ih => exact ih closed ends
  | up _ ih => exact ih (wellFormed.entryAt?_dropLast closed) ends
  | deeper _ _ found _ ih => exact ih found ends
  | last _ _ _ plain =>
    cases ends
    exact plain rfl target
  | link => cases ends

theorem Follows.plain {spot : Spot} (wellFormed : t.WellFormed) (closed : t.entryAt? folder = some .folder)
    (way : Follows t true links folder names spot) (target : Text) : spot.entry ≠ some (.link target) := by
  induction way with
  | ended down => exact down.plain wellFormed closed rfl target
  | link down _ ih => exact ih (isFolder_origin (isFolder_stopped wellFormed closed down) _)

/-- Single dots lead nowhere else. -/
theorem Follows.of_targetNames {target : Text} {spot : Spot} (wellFormed : t.WellFormed)
    (closed : t.entryAt? folder = some .folder)
    (way : Follows t true links folder (targetNames target) spot) :
    Follows t true links folder (Path.names target) spot := by
  obtain ⟨place, first, behind, -⟩ := way.split wellFormed closed
  have stays : spot = ⟨place, t.entryAt? place⟩ := by
    split at behind
    · have stays : Follows t true links place [['.']] ⟨place, t.entryAt? place⟩ := .ended (.dot .here)
      exact behind.unique stays
    · exact behind.eq_of_nil
  rwa [stays]

section Single

variable {name : Text} {place : Place} {entry : Option Entry}
  (way : Follows t true links folder [name] ⟨place, entry⟩)

include way

/-- Up to the folder around, which the topmost folder is itself. -/
theorem Follows.outer (up : name = Path.up) : place = folder.dropLast := by
  subst up
  have above : Follows t true links folder [Path.up] ⟨folder.dropLast, t.entryAt? folder.dropLast⟩ :=
    .ended (.up .here)
  exact (Spot.mk.inj (way.unique above)).1

/-- One name that is no step leads to what bears it, unless that is a link. -/
theorem Follows.single (step : IsStep name)
    (plain : ∀ target, t.entryAt? (folder ++ [name]) ≠ some (.link target)) : place = folder ++ [name] := by
  have ended : ∀ {d}, Descends t true folder [name] d → ∃ entry, d = .ended ⟨folder ++ [name], entry⟩ := by
    intro d down
    cases down with
    | dot => exact absurd rfl step.1
    | up => exact absurd rfl step.2
    | deeper _ _ _ inside =>
      cases inside
      exact ⟨_, rfl⟩
    | last => exact ⟨_, rfl⟩
    | link _ _ found _ => exact absurd found (plain _)
  cases way with
  | ended down =>
    obtain ⟨entry, same⟩ := ended down
    exact (Spot.mk.inj (Descent.ended.inj same)).1
  | link down _ =>
    obtain ⟨_, same⟩ := ended down
    cases same

/-- One name of a link leads where its target leads, with one link less. -/
theorem Follows.target {target : Text} (step : IsStep name) (wellFormed : t.WellFormed)
    (found : t.entryAt? (folder ++ [name]) = some (.link target)) :
    ∃ fewer, links = fewer + 1 ∧
      Follows t true fewer (if (Path.read target).isAbsolute then [] else folder) (Path.names target)
        ⟨place, entry⟩ := by
  have stopped : ∀ {d}, Descends t true folder [name] d → d = .stopped folder target [] := by
    intro d down
    cases down with
    | dot => exact absurd rfl step.1
    | up => exact absurd rfl step.2
    | deeper _ _ closed _ =>
      rw [found] at closed
      cases closed
    | last _ _ _ plain => exact absurd found (plain rfl target)
    | link _ _ found' _ =>
      rw [found] at found'
      cases found'
      rfl
  cases way with
  | ended down => cases stopped down
  | link down behind =>
    obtain ⟨same, text, nothing⟩ := Descent.stopped.inj (stopped down)
    rw [same, text, nothing, List.append_nil] at behind
    exact ⟨_, rfl, behind.of_targetNames wellFormed (isFolder_origin (wellFormed.outer found) target)⟩

end Single

/-- The names of what is no link lead to it. -/
theorem Follows.eq_of_solid {place : Place} {entry : Option Entry} (wellFormed : t.WellFormed)
    (short : ∀ name ∈ names, IsShort name) {found : Entry} (there : t.entryAt? names = some found)
    (solid : ∀ target, found ≠ .link target) (way : Follows t true links [] names ⟨place, entry⟩) :
    place = names := by
  cases ends : names.getLast? with
  | none =>
    rw [List.getLast?_eq_none_iff.mp ends] at way ⊢
    exact (Spot.mk.inj way.eq_of_nil).1
  | some last =>
    obtain ⟨front, rfl⟩ := List.getLast?_eq_some_iff.mp ends
    have isName := wellFormed.isName_of_entry there last (by simp)
    have down : Follows t true links [] front ⟨front, some .folder⟩ :=
      .ended (descends_folder wellFormed (fun n member => short n (List.mem_append_left _ member))
        (wellFormed.outer there))
    obtain ⟨around, first, single, -⟩ := way.split wellFormed rfl
    rw [(Spot.mk.inj (first.unique down)).1] at single
    exact single.single ⟨isName.2.1, isName.2.2.1⟩ fun target link =>
      solid target (Option.some.inj (there.symm.trans link))

/-- Whether every entry of a tree can be looked for by its path from the topmost folder. -/
def Addressable (t : FileTree) : Prop := ∀ place ∈ t.entries.keys, Workspace.IsWithin place

instance (t : FileTree) : Decidable t.Addressable :=
  inferInstanceAs (Decidable (∀ place ∈ t.entries.keys, _ ∧ ∀ name ∈ place, _ ≤ _))

theorem Addressable.isWithin {place : Place} (addressable : t.Addressable)
    {entry : Entry} (found : t.entryAt? place = some entry) : Workspace.IsWithin place := by
  by_cases top : place = []
  · subst top
    exact ⟨by decide, by simp⟩
  · exact addressable place (mem_keys_of_entryAt?_eq_some top found)

end FileTree

namespace Workspace

open FileTree

variable {w : Workspace} (wellFormed : w.files.WellFormed) (addressable : w.files.Addressable)

include wellFormed addressable

/-- The path of an entry leads to it. -/
theorem locate_entry {place : Place} {name : Text} {entry : Entry}
    (found : w.files.entryAt? (place ++ [name]) = some entry) :
    w.locate ⟨.slash, place ++ [name]⟩ false = .ok ⟨place ++ [name], some entry⟩ := by
  have within := addressable.isWithin found
  have isName := wellFormed.isName_of_entry found name (by simp)
  have down : Descends w.files true [] place (.ended ⟨place, some .folder⟩) :=
    descends_folder wellFormed (fun n member => within.2 n (List.mem_append_left _ member))
      (wellFormed.outer found)
  have around : w.files.follow true linkLimit [] place = .ok ⟨place, some .folder⟩ :=
    follow_eq_ok_iff.mpr (.ended down)
  have led := follow_append_of_folder isName.2.1 isName.2.2.1 (within.2 name (by simp)) around
  rw [found] at led
  exact locate_eq_ok_iff.mpr ⟨within.1, led⟩

theorem locate_solid {place : Place} {entry : Entry} (found : w.files.entryAt? place = some entry)
    (solid : ∀ target, entry ≠ .link target) : w.locate ⟨.slash, place⟩ = .ok ⟨place, some entry⟩ := by
  cases ends : place.getLast? with
  | none =>
    obtain rfl := List.getLast?_eq_none_iff.mp ends
    rw [← found]
    exact locate_eq_ok_iff.mpr ⟨by decide, follow_eq_ok_iff.mpr (.ended .here)⟩
  | some last =>
    obtain ⟨front, rfl⟩ := List.getLast?_eq_some_iff.mp ends
    exact locate_true_of_false (locate_entry wellFormed addressable found) (by simpa using solid)

/-- Where names lead is found when, for each link on the way, the place is found where it leads. -/
theorem resolveNames_eq_place {enter : List Path → Path → List Text → Resolution} {entered : List Path}
    {links : Nat}
    (enters : ∀ {place name target mid}, IsStep name →
      w.files.entryAt? (place ++ [name]) = some (.link target) → w.files.entryAt? mid ≠ none →
      Follows w.files true links place [name] ⟨mid, w.files.entryAt? mid⟩ →
      (⟨.slash, place ++ [name]⟩ : Path) ∉ entered ∧
        enter (⟨.slash, place ++ [name]⟩ :: entered)
          (if (Path.read target).isAbsolute then ⟨.slash, []⟩ else ⟨.slash, place⟩) (Path.names target) =
            .whole ⟨.slash, mid⟩)
    {place : Place} {names : List Text} {spot : Spot} (valid : Path.AreParts names)
    (way : Follows w.files true links place names spot) (there : spot.entry ≠ none)
    (closed : names ≠ [] → w.files.entryAt? place = some .folder) :
    w.resolveNames false enter entered ⟨.slash, place⟩ names = .whole ⟨.slash, spot.place⟩ := by
  induction names generalizing place with
  | nil =>
    rw [way.eq_of_nil]
    rfl
  | cons name rest ih =>
    have closed := closed (by simp)
    have cut : Follows w.files true links place ([name] ++ rest) spot := way
    obtain ⟨mid, first, later, isFolder⟩ := cut.split wellFormed closed
    have onward := ih (fun n member => valid n (List.mem_cons_of_mem _ member)) later isFolder
    have midThere : w.files.entryAt? mid ≠ none := by
      by_cases last : rest = []
      · subst last
        rw [later.eq_of_nil] at there
        exact there
      · simp [isFolder last]
    by_cases isUp : name = Path.up
    · rw [resolveNames, if_pos isUp, wellFormed.outer_path closed, ← first.outer isUp]
      exact onward
    · obtain ⟨filled, dot, plain⟩ := valid name List.mem_cons_self
      have child : (⟨.slash, place⟩ : Path).child name = ⟨.slash, place ++ [name]⟩ :=
        Path.IsName.child ⟨filled, dot, isUp, plain⟩ _
      rw [resolveNames, if_neg isUp, child]
      cases found : w.files.entryAt? (place ++ [name]) with
      | none =>
        have here := first.single ⟨dot, isUp⟩ (by simp [found])
        rw [here] at midThere
        exact absurd found midThere
      | some entry =>
        dsimp only
        rw [locate_entry wellFormed addressable found]
        cases entry with
        | link target =>
          obtain ⟨fresh, whole⟩ := enters ⟨dot, isUp⟩ found midThere first
          dsimp only
          rw [if_neg (by rwa [List.contains_iff_mem]), whole]
          exact onward
        | file | folder =>
          have here := first.single ⟨dot, isUp⟩ (by simp [found])
          rwa [here] at onward

omit addressable

variable {links depth : Nat} {entered : List Place}

/-- Links that are being replaced, inside each other, when so many more may be followed and entered: each
needs more to be followed than are left, and the others are few enough to be entered. -/
structure Entered (w : Workspace) (links depth : Nat) (entered : List Place) : Prop where
  distinct : entered.Nodup
  known : entered ⊆ w.files.entries.keys
  busy : ∀ folder name, folder ++ [name] ∈ entered → ∀ spot, ¬ Follows w.files true links folder [name] spot
  deep : w.files.entries.keys.length ≤ entered.length + depth

omit wellFormed in
theorem entered_nil (w : Workspace) (links : Nat) : Entered w links w.resolveDepth [] where
  distinct := List.nodup_nil
  known := List.nil_subset _
  busy := by simp
  deep := by
    have enough : w.files.entries.length * 1 ≤ (w.files.entries.length + 1) * (w.current.length + 2) :=
      Nat.mul_le_mul (by omega) (by omega)
    simpa [Table.keys, resolveDepth] using enough

/-- A link that leads somewhere is not entered inside itself, and its target takes fewer links. -/
theorem Entered.enter {folder : Place} {name target : Text} {spot : Spot} (inside : Entered w links depth entered)
    (step : IsStep name) (found : w.files.entryAt? (folder ++ [name]) = some (.link target))
    (way : Follows w.files true links folder [name] spot) :
    folder ++ [name] ∉ entered ∧ ∃ fewer < links, ∃ less, depth = less + 1 ∧
      Follows w.files true fewer (if (Path.read target).isAbsolute then [] else folder) (Path.names target) spot ∧
      Entered w fewer less ((folder ++ [name]) :: entered) := by
  classical
  have fresh : folder ++ [name] ∉ entered := fun again => inside.busy folder name again _ way
  have isKey : folder ++ [name] ∈ w.files.entries.keys := mem_keys_of_entryAt?_eq_some (by simp) found
  have distinct : ((folder ++ [name]) :: entered).Nodup := List.nodup_cons.mpr ⟨fresh, inside.distinct⟩
  have known : (folder ++ [name]) :: entered ⊆ w.files.entries.keys :=
    List.cons_subset.mpr ⟨isKey, inside.known⟩
  have room : entered.length + 1 ≤ w.files.entries.keys.length :=
    (List.subperm_of_subset distinct known).length_le
  have deep := inside.deep
  obtain ⟨less, rfl⟩ := Nat.exists_eq_add_of_le' (show 1 ≤ depth by omega)
  -- With the fewest links that lead through this one, it cannot be followed again behind itself.
  have leads : ∃ k, Follows w.files true k folder [name] spot := ⟨links, way⟩
  obtain ⟨fewer, least, behind⟩ := (Nat.find_spec leads).target step wellFormed found
  have most := Nat.find_min' leads way
  refine ⟨fresh, fewer, by omega, less, rfl, behind, distinct, known, ?_, ?_⟩
  · intro outer n member other again
    rcases List.mem_cons.mp member with same | earlier
    · obtain ⟨rfl, last⟩ := List.append_inj' same rfl
      obtain rfl := List.singleton_inj.mp last
      rw [again.unique way] at again
      exact Nat.find_min leads (by omega) again
    · exact inside.busy outer n earlier other (again.mono (by omega))
  · rw [List.length_cons]
    omega

include addressable

/-- The true path of what names lead to is the path of its place. -/
theorem resolveWithin_eq_place {place : Place} {names : List Text} {spot : Spot}
    (inside : Entered w links depth entered) (valid : Path.AreParts names)
    (way : Follows w.files true links place names spot) (there : spot.entry ≠ none)
    (closed : w.files.entryAt? place = some .folder) :
    w.resolveWithin false depth (entered.map (⟨.slash, ·⟩)) ⟨.slash, place⟩ names =
      .whole ⟨.slash, spot.place⟩ := by
  induction links using Nat.strongRecOn generalizing depth entered place names spot with
  | ind links ih =>
    have fresh : ∀ {key : Place}, key ∉ entered → (⟨.slash, key⟩ : Path) ∉ entered.map (⟨.slash, ·⟩) := by
      intro key absent member
      obtain ⟨_, listed, same⟩ := List.mem_map.mp member
      exact absent ((Path.mk.inj same).2 ▸ listed)
    cases depth with
    | zero =>
      refine resolveNames_eq_place wellFormed addressable ?_ valid way there fun _ => closed
      intro folder name target mid step found _ through
      obtain ⟨-, _, -, less, impossible, -⟩ := inside.enter wellFormed step found through
      omega
    | succ depth =>
      refine resolveNames_eq_place wellFormed addressable ?_ valid way there fun _ => closed
      intro folder name target mid step found midThere through
      obtain ⟨absent, fewer, below, less, same, behind, deeper⟩ := inside.enter wellFormed step found through
      obtain rfl := Nat.succ.inj same
      have whole := ih fewer below deeper (Path.areParts_names target) behind midThere
        (isFolder_origin (wellFormed.outer found) target)
      refine ⟨fresh absent, ?_⟩
      rw [← whole]
      split <;> rfl

/-- The true path of what an absolute path leads to is the path of its place. -/
theorem resolve_eq_place {p : Path} {place : Place} {entry : Entry} (absolute : p.isAbsolute = true)
    (valid : Path.AreParts p.parts) (located : w.locate p = .ok ⟨place, some entry⟩) :
    w.resolve p = .ok ⟨.slash, place⟩ := by
  have base : w.base p = [] := if_pos absolute
  have led := follow_eq_ok_iff.mp (locate_eq_ok_iff.mp located).2
  rw [base] at led
  have found : w.files.entryAt? place = some entry := (entry_of_locate located).symm
  have whole : w.resolution false p = .whole ⟨.slash, place⟩ := by
    rw [resolution, if_pos absolute]
    exact resolveWithin_eq_place wellFormed addressable (entered_nil w _) valid led (by simp) rfl
  have same : w.absolute ⟨.slash, place⟩ = ⟨.slash, place⟩ :=
    congrArg (Path.mk .slash) (withoutSteps_append_names [] (wellFormed.isName_of_entry found))
  have there : w.locate ⟨.slash, place⟩ = .ok ⟨place, some entry⟩ :=
    locate_solid wellFormed addressable found fun target link =>
      led.plain wellFormed rfl target (congrArg some link)
  rw [resolve, whole]
  dsimp only
  rw [same, Workspace.entry, there]
  rfl

/-- The path of a path's place as seen from a folder, by names: those below the folder, or the path as given
when the place is elsewhere. -/
theorem relativeText_eq {root p : Path} {place : Place} {entry : Entry}
    (rooted : w.resolve root = .ok ⟨.slash, root.parts⟩) (absolute : p.isAbsolute = true)
    (valid : Path.AreParts p.parts) (located : w.locate p = .ok ⟨place, some entry⟩) :
    w.relativeText root p = .ok
      (if root.parts <+: place then (⟨.relative, place.drop root.parts.length⟩ : Path).text else p.text) := by
  rw [relativeText, resolve_eq_place wellFormed addressable absolute valid located, rooted, ok_bind, ok_bind,
    Path.relativeTo?]
  by_cases inside : root.parts <+: place
  · rw [if_pos inside, if_pos ⟨rfl, List.isPrefixOf_iff_prefix.mpr inside⟩]
    rfl
  · rw [if_neg inside, if_neg fun both => inside (List.isPrefixOf_iff_prefix.mp both.2)]
    rfl

end Workspace

end TestSkeleton
