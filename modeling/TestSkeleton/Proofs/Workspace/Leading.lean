import TestSkeleton.Proofs.Workspace.Descent
import TestSkeleton.Proofs.Workspace.Tree

/-! Where a path leads in a tree with links, and what has to stay for it to lead there still: the
folders, and the links on its way. -/

namespace TestSkeleton

/-- The same way through a tree in which the end of the way may have changed. -/
def Descent.within (t : FileTree) : Descent → Descent
  | .ended spot => .ended ⟨spot.place, t.entryAt? spot.place⟩
  | .stopped folder target rest => .stopped folder target rest

/-- The same way with one more name at its end. -/
def Descent.further (t : FileTree) (name : Text) : Descent → Descent
  | .ended spot => .ended ⟨spot.place ++ [name], t.entryAt? (spot.place ++ [name])⟩
  | .stopped folder target rest => .stopped folder target (rest ++ [name])

namespace FileTree

/-- The first link that names lead to which is to be followed. -/
def firstLink (t : FileTree) (followLast : Bool) (folder : Place) : List Text → Option Place
  | [] => none
  | name :: rest =>
    if name = ['.'] then firstLink t followLast folder rest
    else if name = Path.up then firstLink t followLast folder.dropLast rest
    else match t.entryAt? (folder ++ [name]) with
      | some .folder => firstLink t followLast (folder ++ [name]) rest
      | some (.link _) => if rest.isEmpty && !followLast then none else some (folder ++ [name])
      | _ => none

/-- The links that names lead through, at most `links` of them and one more. -/
def linksOn (t : FileTree) (followLast : Bool) : (links : Nat) → Place → List Text → List Place
  | links, folder, names =>
    (t.firstLink followLast folder names).toList ++
      match t.descend followLast folder names with
      | .ok (.stopped folder target rest) =>
        match links with
        | 0 => []
        | links + 1 =>
          let start := if (Path.read target).isAbsolute then [] else folder
          t.linksOn followLast links start (targetNames target ++ rest)
      | _ => []

variable {t t' : FileTree} {followLast : Bool} {links : Nat} {folder : Place} {names : List Text}

theorem isLink_of_firstLink {q : Place} (met : t.firstLink followLast folder names = some q) :
    ∃ target, t.entryAt? q = some (.link target) := by
  induction names generalizing folder with
  | nil => cases met
  | cons name rest ih =>
    rw [firstLink] at met
    split at met
    · exact ih met
    split at met
    · exact ih met
    split at met
    · exact ih met
    · rename_i target link
      split at met
      · cases met
      · cases met
        exact ⟨target, link⟩
    · cases met

theorem isLink_of_mem_linksOn {q : Place} (member : q ∈ t.linksOn followLast links folder names) :
    ∃ target, t.entryAt? q = some (.link target) := by
  induction links generalizing folder names with
  | zero =>
    rw [linksOn] at member
    rcases List.mem_append.mp member with first | later
    · exact isLink_of_firstLink (Option.mem_toList.mp first)
    · split at later <;> cases later
  | succ links ih =>
    rw [linksOn] at member
    rcases List.mem_append.mp member with first | later
    · exact isLink_of_firstLink (Option.mem_toList.mp first)
    · split at later
      · exact ih later
      · cases later

/-- What names lead to is what the tree holds there. -/
theorem Descends.entry {d : Descent} (way : Descends t followLast folder names d) {spot : Spot}
    (ends : d = .ended spot) : spot.entry = t.entryAt? spot.place := by
  induction way with
  | here | last =>
    cases ends
    rfl
  | dot _ ih | up _ ih => exact ih ends
  | deeper _ _ _ _ ih => exact ih ends
  | link => cases ends

theorem entry_of_follow {spot : Spot}
    (led : t.follow followLast links folder names = .ok spot) :
    spot.entry = t.entryAt? spot.place := by
  rw [follow_eq_ok_iff] at led
  induction led with
  | ended down => exact down.entry rfl
  | link _ _ ih => exact ih

section Kept

variable (folders : ∀ q, t.entryAt? q = some .folder → t'.entryAt? q = some .folder)

include folders

/-- Going down comes out the same where folders stay folders and the link at which it stops stays. -/
theorem Descends.kept {d : Descent} (way : Descends t followLast folder names d)
    (stays : ∀ q, t.firstLink followLast folder names = some q → t'.entryAt? q = t.entryAt? q)
    (plain : ∀ spot, d = .ended spot → followLast = true →
      ∀ target, t'.entryAt? spot.place ≠ some (.link target)) :
    Descends t' followLast folder names (d.within t') := by
  induction way with
  | here => exact .here
  | dot _ ih => exact .dot (ih (by simpa [firstLink] using stays) plain)
  | up _ ih =>
    rw [firstLink, if_neg (by decide), if_pos rfl] at stays
    exact .up (ih stays plain)
  | deeper step short found _ ih =>
    rw [firstLink, if_neg step.1, if_neg step.2, found] at stays
    exact .deeper step short (folders _ found) (ih stays plain)
  | @last folder name step short _ _ =>
    -- A way that ends here ends here whatever the entry has become.
    by_cases closed : t'.entryAt? (folder ++ [name]) = some .folder
    · exact .deeper step short closed .here
    · exact .last step short closed (plain _ rfl)
  | link step short found more =>
    rw [firstLink, if_neg step.1, if_neg step.2, found] at stays
    refine .link step short ?_ more
    rw [stays _ (by simp [more]), found]

/-- A path leads where it led when the folders and the links on its way stay. -/
theorem follow_kept {spot : Spot} (led : t.follow followLast links folder names = .ok spot)
    (stays : ∀ q ∈ t.linksOn followLast links folder names, t'.entryAt? q = t.entryAt? q)
    (plain : followLast = true → ∀ target, t'.entryAt? spot.place ≠ some (.link target)) :
    t'.follow followLast links folder names = .ok ⟨spot.place, t'.entryAt? spot.place⟩ := by
  have first : ∀ {links folder names},
      (∀ q ∈ t.linksOn followLast links folder names, t'.entryAt? q = t.entryAt? q) →
      ∀ q, t.firstLink followLast folder names = some q → t'.entryAt? q = t.entryAt? q := by
    intro links folder names stays q met
    apply stays
    rw [linksOn]
    exact List.mem_append_left _ (Option.mem_toList.mpr met)
  rw [follow_eq_ok_iff] at led ⊢
  induction led with
  | ended down =>
    exact .ended (down.kept folders (first stays) fun _ same => Descent.ended.inj same ▸ plain)
  | link down _ ih =>
    refine .link (down.kept folders (first stays) nofun) (ih (fun q member => stays q ?_) plain)
    rw [linksOn, descend_eq_ok_iff.mpr down]
    exact List.mem_append_right _ member

end Kept

/-- Following a last link makes no difference where there is none. -/
theorem Descends.true_of_false {d : Descent} (way : Descends t false folder names d)
    (plain : ∀ spot, d = .ended spot → ∀ target, spot.entry ≠ some (.link target)) :
    Descends t true folder names d := by
  induction way with
  | here => exact .here
  | dot _ ih => exact .dot (ih plain)
  | up _ ih => exact .up (ih plain)
  | deeper step short found _ ih => exact .deeper step short found (ih plain)
  | last step short solid _ => exact .last step short solid fun _ => plain _ rfl
  | link step short found _ => exact .link step short found (Bool.and_false _)

theorem follow_true_of_false {spot : Spot} (led : t.follow false links folder names = .ok spot)
    (plain : ∀ target, spot.entry ≠ some (.link target)) :
    t.follow true links folder names = .ok spot := by
  rw [follow_eq_ok_iff] at led ⊢
  induction led with
  | ended down => exact .ended (down.true_of_false fun _ same => Descent.ended.inj same ▸ plain)
  | link down _ ih => exact .link (down.true_of_false nofun) (ih plain)

section Last

variable {name : Text} (dot : name ≠ ['.']) (up : name ≠ Path.up)

include dot up

/-- One name leads to what bears it. -/
theorem descends_single {d : Descent} (way : Descends t false folder [name] d) :
    IsShort name ∧ d = .ended ⟨folder ++ [name], t.entryAt? (folder ++ [name])⟩ := by
  cases way with
  | dot => exact absurd rfl dot
  | up => exact absurd rfl up
  | deeper _ short _ inside =>
    cases inside
    exact ⟨short, rfl⟩
  | last _ short _ _ => exact ⟨short, rfl⟩
  | link _ _ _ more => cases more

theorem Descends.outer {d : Descent} (way : Descends t false folder (names ++ [name]) d) :
    ∃ around, Descends t true folder names around ∧ d = around.further t name ∧
      (∀ spot, around = .ended spot → IsShort name) := by
  induction names generalizing folder with
  | nil =>
    obtain ⟨short, rfl⟩ := descends_single dot up way
    exact ⟨_, .here, rfl, fun _ _ => short⟩
  | cons first rest ih =>
    generalize shape : first :: rest ++ [name] = whole at way
    cases way with
    | here => cases shape
    | dot inside =>
      cases shape
      obtain ⟨around, outside, same, short⟩ := ih inside
      exact ⟨around, .dot outside, same, short⟩
    | up inside =>
      cases shape
      obtain ⟨around, outside, same, short⟩ := ih inside
      exact ⟨around, .up outside, same, short⟩
    | deeper step fits found inside =>
      cases shape
      obtain ⟨around, outside, same, short⟩ := ih inside
      exact ⟨around, .deeper step fits found outside, same, short⟩
    | last => simp at shape
    | @link _ _ _ target step fits found _ =>
      cases shape
      exact ⟨.stopped folder target rest, .link step fits found (Bool.and_false _), rfl, nofun⟩

/-- A path with a last name leads into the place that the path around it leads to. -/
theorem follow_append_single {spot : Spot}
    (led : t.follow false links folder (names ++ [name]) = .ok spot) :
    IsShort name ∧ ∃ outer, t.follow true links folder names = .ok ⟨outer, t.entryAt? outer⟩ ∧
      spot = ⟨outer ++ [name], t.entryAt? (outer ++ [name])⟩ := by
  rw [follow_eq_ok_iff] at led
  simp only [follow_eq_ok_iff]
  generalize shape : names ++ [name] = whole at led
  induction led generalizing names with
  | ended down =>
    subst shape
    obtain ⟨around, outside, same, short⟩ := down.outer dot up
    cases around with
    | stopped => cases same
    | ended end_ =>
      refine ⟨short _ rfl, end_.place, ?_, Descent.ended.inj same⟩
      rw [← outside.entry rfl]
      exact .ended outside
  | link down _ ih =>
    subst shape
    obtain ⟨around, outside, same, -⟩ := down.outer dot up
    cases around with
    | ended => cases same
    | stopped start target rest =>
      obtain ⟨rfl, rfl, rfl⟩ := Descent.stopped.inj same
      obtain ⟨short, outer, led, ends⟩ := ih (List.append_assoc _ _ _)
      exact ⟨short, outer, .link outside led, ends⟩

/-- One more name, on a way that ends in a folder or stops at a link. -/
theorem Descends.further (short : IsShort name) {d : Descent} (way : Descends t true folder names d)
    (ends : ∀ spot, d = .ended spot → spot.entry = some .folder) :
    Descends t false folder (names ++ [name]) (d.further t name) := by
  induction way with
  | @here folder =>
    by_cases closed : t.entryAt? (folder ++ [name]) = some .folder
    · exact .deeper ⟨dot, up⟩ short closed .here
    · exact .last ⟨dot, up⟩ short closed nofun
  | dot _ ih => exact .dot (ih ends)
  | up _ ih => exact .up (ih ends)
  | deeper step fits found _ ih => exact .deeper step fits found (ih ends)
  | last _ _ solid _ => exact absurd (ends _ rfl) solid
  | link step fits found _ => exact .link step fits found (by simp)

/-- In the folder that a path leads to, one more name leads to what bears it. -/
theorem follow_append_of_folder (short : IsShort name) {outer : Place}
    (led : t.follow true links folder names = .ok ⟨outer, some .folder⟩) :
    t.follow false links folder (names ++ [name]) =
      .ok ⟨outer ++ [name], t.entryAt? (outer ++ [name])⟩ := by
  rw [follow_eq_ok_iff] at led ⊢
  generalize shape : (⟨outer, some .folder⟩ : Spot) = spot at led
  induction led with
  | ended down =>
    subst shape
    exact .ended (down.further dot up short fun _ same => by rw [← Descent.ended.inj same])
  | link down _ ih =>
    refine .link (down.further dot up short nofun) ?_
    rw [← List.append_assoc]
    exact ih shape

end Last

end FileTree

namespace Workspace

variable {w w' : Workspace} {p : Path} {followLast : Bool} {spot : Spot}

/-- The links that a path leads through. -/
def linksOn (w : Workspace) (p : Path) (followLast : Bool := true) : List Place :=
  w.files.linksOn followLast FileTree.linkLimit (w.base p) p.parts

theorem locate_eq_ok_iff :
    w.locate p followLast = .ok spot ↔
      (Utf8.encode p.text).length ≤ FileTree.pathLimit ∧
        w.files.follow followLast FileTree.linkLimit (w.base p) p.parts = .ok spot := by
  rw [locate]
  split
  · rename_i long
    constructor
    · intro located
      cases located
    · rintro ⟨short, -⟩
      exact absurd short (by omega)
  · rename_i short
    exact ⟨fun led => ⟨by omega, led⟩, fun both => both.2⟩

theorem entry_of_locate (located : w.locate p followLast = .ok spot) :
    spot.entry = w.files.entryAt? spot.place :=
  FileTree.entry_of_follow (locate_eq_ok_iff.mp located).2

/-- A path leads where it led when the folders and the links on its way stay. -/
theorem locate_kept (located : w.locate p followLast = .ok spot) (current : w'.current = w.current)
    (folders : ∀ q, w.files.entryAt? q = some .folder → w'.files.entryAt? q = some .folder)
    (stays : ∀ q ∈ w.linksOn p followLast, w'.files.entryAt? q = w.files.entryAt? q)
    (plain : followLast = true → ∀ target, w'.files.entryAt? spot.place ≠ some (.link target)) :
    w'.locate p followLast = .ok ⟨spot.place, w'.files.entryAt? spot.place⟩ := by
  obtain ⟨short, led⟩ := locate_eq_ok_iff.mp located
  have base : w'.base p = w.base p := by rw [Workspace.base, Workspace.base, current]
  refine locate_eq_ok_iff.mpr ⟨short, ?_⟩
  rw [base]
  exact FileTree.follow_kept folders led stays plain

/-- Following a last link makes no difference where there is none. -/
theorem locate_true_of_false (located : w.locate p false = .ok spot)
    (plain : ∀ target, spot.entry ≠ some (.link target)) : w.locate p = .ok spot := by
  obtain ⟨short, led⟩ := locate_eq_ok_iff.mp located
  exact locate_eq_ok_iff.mpr ⟨short, FileTree.follow_true_of_false led plain⟩

/-- A path with a last name ends in that name, wherever the links on its way lead. -/
theorem getLast?_place_of_locate {name : Text} (ends : p.parts.getLast? = some name)
    (dot : name ≠ ['.']) (up : name ≠ Path.up) (located : w.locate p false = .ok spot) :
    spot.place.getLast? = some name := by
  obtain ⟨front, shape⟩ := List.getLast?_eq_some_iff.mp ends
  obtain ⟨-, led⟩ := locate_eq_ok_iff.mp located
  rw [shape] at led
  obtain ⟨-, outer, -, rfl⟩ := FileTree.follow_append_single dot up led
  exact List.getLast?_concat ..

end Workspace

end TestSkeleton
