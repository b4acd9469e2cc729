import TestSkeleton.Proofs.Outcome
import TestSkeleton.Proofs.Workspace.Linkless

/-! How names lead down a tree with links, one name at a time. -/

namespace TestSkeleton.FileTree

/-- Names lead down from a folder, to their end or to the first link that is to be followed. -/
inductive Descends (t : FileTree) (followLast : Bool) : Place → List Text → Descent → Prop where
  | here {folder : Place} : Descends t followLast folder [] (.ended ⟨folder, t.entryAt? folder⟩)
  | dot {folder : Place} {rest : List Text} {d : Descent} :
      Descends t followLast folder rest d → Descends t followLast folder (['.'] :: rest) d
  | up {folder : Place} {rest : List Text} {d : Descent} :
      Descends t followLast folder.dropLast rest d → Descends t followLast folder (Path.up :: rest) d
  | deeper {folder : Place} {name : Text} {rest : List Text} {d : Descent} : IsStep name → IsShort name →
      t.entryAt? (folder ++ [name]) = some .folder → Descends t followLast (folder ++ [name]) rest d →
      Descends t followLast folder (name :: rest) d
  | last {folder : Place} {name : Text} : IsStep name → IsShort name →
      t.entryAt? (folder ++ [name]) ≠ some .folder →
      (followLast = true → ∀ target, t.entryAt? (folder ++ [name]) ≠ some (.link target)) →
      Descends t followLast folder [name] (.ended ⟨folder ++ [name], t.entryAt? (folder ++ [name])⟩)
  | link {folder : Place} {name : Text} {rest : List Text} {target : Text} : IsStep name → IsShort name →
      t.entryAt? (folder ++ [name]) = some (.link target) → (rest.isEmpty && !followLast) = false →
      Descends t followLast folder (name :: rest) (.stopped folder target rest)

/-- Names lead down from a folder, through at most so many links. -/
inductive Follows (t : FileTree) (followLast : Bool) : Nat → Place → List Text → Spot → Prop where
  | ended {links : Nat} {folder : Place} {names : List Text} {spot : Spot} :
      Descends t followLast folder names (.ended spot) → Follows t followLast links folder names spot
  | link {links : Nat} {folder start : Place} {names rest : List Text} {target : Text} {spot : Spot} :
      Descends t followLast folder names (.stopped start target rest) →
      Follows t followLast links (if (Path.read target).isAbsolute then [] else start)
        (targetNames target ++ rest) spot →
      Follows t followLast (links + 1) folder names spot

variable {t : FileTree} {followLast : Bool} {links : Nat} {folder : Place} {names : List Text}

section Step

variable {name : Text} {rest : List Text}

theorem descend_dot : t.descend followLast folder (['.'] :: rest) = t.descend followLast folder rest := by
  rw [descend, if_pos rfl]

theorem descend_up :
    t.descend followLast folder (Path.up :: rest) = t.descend followLast folder.dropLast rest := by
  rw [descend, if_neg (by decide), if_pos rfl]

theorem descend_long (step : IsStep name) (long : ¬IsShort name) :
    t.descend followLast folder (name :: rest) = .error .nameTooLong := by
  rw [descend, if_neg step.1, if_neg step.2, if_pos (Nat.not_le.mp long)]

theorem descend_folder (step : IsStep name) (short : IsShort name)
    (inner : t.entryAt? (folder ++ [name]) = some .folder) :
    t.descend followLast folder (name :: rest) = t.descend followLast (folder ++ [name]) rest := by
  rw [descend, if_neg step.1, if_neg step.2, if_neg (Nat.not_lt.mpr short)]
  dsimp only
  rw [inner]

theorem descend_link (step : IsStep name) (short : IsShort name) {target : Text}
    (found : t.entryAt? (folder ++ [name]) = some (.link target))
    (followed : (rest.isEmpty && !followLast) = false) :
    t.descend followLast folder (name :: rest) = .ok (.stopped folder target rest) := by
  rw [descend, if_neg step.1, if_neg step.2, if_neg (Nat.not_lt.mpr short)]
  dsimp only
  rw [found]
  dsimp only
  rw [followed]
  rfl

/-- What is no folder and no link to be followed ends the way: with the last name or with a fault. -/
theorem descend_closed (step : IsStep name) (short : IsShort name)
    (closed : t.entryAt? (folder ++ [name]) ≠ some .folder)
    (plain : ∀ target, t.entryAt? (folder ++ [name]) = some (.link target) →
      (rest.isEmpty && !followLast) = true) :
    t.descend followLast folder (name :: rest) =
      if rest.isEmpty then .ok (.ended ⟨folder ++ [name], t.entryAt? (folder ++ [name])⟩)
      else .error (if (t.entryAt? (folder ++ [name])).isSome then .notFolder else .notFound) := by
  rw [descend, if_neg step.1, if_neg step.2, if_neg (Nat.not_lt.mpr short)]
  dsimp only
  cases found : t.entryAt? (folder ++ [name]) with
  | none => rfl
  | some entry =>
    cases entry with
    | file content => rfl
    | folder => exact absurd found closed
    | link target =>
      have unfollowed := plain target found
      dsimp only
      rw [if_pos unfollowed, if_pos (Bool.and_eq_true_iff.mp unfollowed).1]

end Step

theorem Descends.descend_eq {d : Descent} (way : Descends t followLast folder names d) :
    t.descend followLast folder names = .ok d := by
  induction way with
  | here => rfl
  | dot _ ih => rw [descend_dot, ih]
  | up _ ih => rw [descend_up, ih]
  | deeper step short found _ ih => rw [descend_folder step short found, ih]
  | last step short solid plain =>
    refine descend_closed step short solid fun target found => ?_
    cases followLast with
    | false => rfl
    | true => exact absurd found (plain rfl target)
  | link step short found followed => exact descend_link step short found followed

theorem Descends.of_descend {d : Descent} (gone : t.descend followLast folder names = .ok d) :
    Descends t followLast folder names d := by
  induction names generalizing folder with
  | nil =>
    obtain rfl := Except.ok.inj gone
    exact .here
  | cons name rest ih =>
    rcases dot_or_up_or_isStep name with rfl | rfl | step
    · exact .dot (ih (descend_dot ▸ gone))
    · exact .up (ih (descend_up ▸ gone))
    by_cases short : IsShort name
    swap
    · rw [descend_long step short] at gone
      cases gone
    by_cases inner : t.entryAt? (folder ++ [name]) = some .folder
    · exact .deeper step short inner (ih (descend_folder step short inner ▸ gone))
    by_cases plain : ∀ target, t.entryAt? (folder ++ [name]) = some (.link target) →
        (rest.isEmpty && !followLast) = true
    · rw [descend_closed step short inner plain] at gone
      split at gone
      · rename_i done
        obtain rfl := Except.ok.inj gone
        obtain rfl := List.isEmpty_iff.mp done
        exact .last step short inner fun follows target found => by simpa [follows] using plain target found
      · cases gone
    · push Not at plain
      obtain ⟨target, found, followed⟩ := plain
      have followed := Bool.eq_false_iff.mpr followed
      rw [descend_link step short found followed] at gone
      obtain rfl := Except.ok.inj gone
      exact .link step short found followed

theorem descend_eq_ok_iff {d : Descent} :
    t.descend followLast folder names = .ok d ↔ Descends t followLast folder names d :=
  ⟨Descends.of_descend, Descends.descend_eq⟩

theorem follow_eq_ok_iff {spot : Spot} :
    t.follow followLast links folder names = .ok spot ↔ Follows t followLast links folder names spot := by
  constructor
  · intro led
    induction links generalizing folder names with
    | zero =>
      rw [follow] at led
      obtain ⟨d, gone, led⟩ := bind_eq_ok.mp led
      cases d with
      | ended end_ =>
        obtain rfl := pure_eq_ok.mp led
        exact .ended (descend_eq_ok_iff.mp gone)
      | stopped => cases led
    | succ links ih =>
      rw [follow] at led
      obtain ⟨d, gone, led⟩ := bind_eq_ok.mp led
      cases d with
      | ended end_ =>
        obtain rfl := pure_eq_ok.mp led
        exact .ended (descend_eq_ok_iff.mp gone)
      | stopped start target rest => exact .link (descend_eq_ok_iff.mp gone) (ih led)
  · intro way
    induction way with
    | ended down =>
      rw [follow, descend_eq_ok_iff.mpr down]
      rfl
    | link down _ ih =>
      rw [follow, descend_eq_ok_iff.mpr down]
      exact ih

end TestSkeleton.FileTree
