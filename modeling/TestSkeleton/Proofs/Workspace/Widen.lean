import TestSkeleton.Proofs.Workspace.Change
import TestSkeleton.Proofs.Workspace.Leading

/-! Making folders in any tree, links or not: what is made is on the way of the path, and all that was
there stays. -/

namespace TestSkeleton

namespace Workspace

variable {w : Workspace} {place : Place} {entry : Entry} {content : Bytes}

theorem filled_of_absent (absent : w.files.entryAt? place = none) : place ≠ [] := by
  rintro rfl
  cases absent

/-- A new entry changes nothing else. -/
theorem entryAt?_put_new (absent : w.files.entryAt? place = none) {q : Place} {old : Entry}
    (found : w.files.entryAt? q = some old) : (w.put place entry).files.entryAt? q = some old := by
  rw [entryAt?_put (filled_of_absent absent), if_neg, found]
  rintro rfl
  rw [absent] at found
  cases found

/-- A new entry leaves paths leading where they led. -/
theorem locate_put_new (absent : w.files.entryAt? place = none) {p : Path} {spot : Spot}
    (located : w.locate p false = .ok spot) :
    (w.put place entry).locate p false =
      .ok ⟨spot.place, (w.put place entry).files.entryAt? spot.place⟩ := by
  refine locate_kept located rfl (fun q => entryAt?_put_new absent) (fun q member => ?_) nofun
  obtain ⟨target, link⟩ := FileTree.isLink_of_mem_linksOn member
  rw [entryAt?_put_new absent link, link]

theorem locate_of_put_new (absent : w.files.entryAt? place = none) {p : Path} {spot : Spot}
    (located : (w.put place (.file content)).locate p false = .ok spot) (apart : spot.place ≠ place) :
    w.locate p false = .ok spot := by
  have entries : ∀ q, (w.put place (.file content)).files.entryAt? q =
      if q = place then some (.file content) else w.files.entryAt? q :=
    entryAt?_put (filled_of_absent absent)
  have kept : ∀ q entry, (w.put place (.file content)).files.entryAt? q = some entry →
      entry ≠ .file content → w.files.entryAt? q = some entry := by
    intro q entry found other
    rw [entries] at found
    split at found
    · exact absurd (Option.some.inj found).symm other
    · exact found
  have led : w.locate p false = .ok ⟨spot.place, w.files.entryAt? spot.place⟩ := by
    refine locate_kept located rfl (fun q inside => kept q .folder inside nofun)
      (fun q member => ?_) nofun
    obtain ⟨target, link⟩ := FileTree.isLink_of_mem_linksOn member
    rw [kept q _ link nofun, link]
  have same : w.files.entryAt? spot.place = spot.entry := by
    rw [entry_of_locate located, entries, if_neg apart]
  rw [led, same]

end Workspace

namespace Change

/-- What the making of a folder and those around it leaves: folders may be there that were missing,
each where the path, or a path around it, leads. -/
structure Widened (p : Path) (w w' : Workspace) : Prop where
  current : w'.current = w.current
  environment : w'.environment = w.environment
  entries : ∀ q, w'.files.entryAt? q = w.files.entryAt? q ∨
    w.files.entryAt? q = none ∧ w'.files.entryAt? q = some .folder ∧
      ∃ parts, parts <+: p.parts ∧ w'.locate ⟨p.root, parts⟩ false = .ok ⟨q, some .folder⟩

variable {p : Path} {w w₁ w₂ : Workspace}

/-- A folder that was made is where its path leads. -/
theorem locate_of_makeFolder {refusal : FolderRefusal}
    (made : (makeFolder p refusal).run w = (.ok (), w₁)) :
    ∃ place, w₁.locate p = .ok ⟨place, some .folder⟩ := by
  obtain ⟨last, spot, -, -, located, missing, rfl⟩ := makeFolder_eq_ok made
  have absent : w.files.entryAt? spot.place = none :=
    (Workspace.entry_of_locate located).symm.trans missing
  have led : (w.put spot.place .folder).locate p false =
      .ok ⟨spot.place, (w.put spot.place .folder).files.entryAt? spot.place⟩ :=
    Workspace.locate_put_new absent located
  rw [Workspace.entryAt?_put (Workspace.filled_of_absent absent), if_pos rfl] at led
  exact ⟨spot.place, Workspace.locate_true_of_false led nofun⟩

/-- When a folder and those around it could be made, its path leads to it. -/
theorem locate_of_ensureFolders {refusal : FolderRefusal}
    (done : (ensureFolders p refusal).run w = (.ok (), w₁)) :
    ∃ place, w₁.locate p = .ok ⟨place, some .folder⟩ := by
  have single : ∀ {p w w₁}, (ensureFolder p refusal).run w = (.ok (), w₁) →
      ∃ place, w₁.locate p = .ok ⟨place, some .folder⟩ := by
    intro p w w₁ done
    rcases ensureFolder_eq_ok done with made | ⟨rfl, there⟩
    · exact locate_of_makeFolder made
    · exact Workspace.isFolder_eq_true.mp there
  have own : p = ⟨p.root, p.parts.reverse.reverse⟩ := by rw [List.reverse_reverse]
  rw [ensureFolders] at done
  rw [own]
  cases back : p.parts.reverse with
  | nil =>
    rw [back] at done
    exact single done
  | cons name outer =>
    rw [back, ensureFoldersBack, run_tryCatch] at done
    cases first : (ensureFolder ⟨p.root, (name :: outer).reverse⟩ refusal).run w with
    | mk result w₂ =>
      rw [first] at done
      cases result with
      | ok _ =>
        obtain ⟨-, rfl⟩ := Prod.mk.inj done
        exact single first
      | error e =>
        dsimp only at done
        split at done
        · obtain ⟨_, w₃, -, last⟩ := run_bind_eq_ok.mp done
          exact single last
        · cases done

theorem Widened.refl (p : Path) (w : Workspace) : Widened p w w := ⟨rfl, rfl, fun _ => .inl rfl⟩

theorem Widened.kept (widened : Widened p w w₁) {q : Place} {entry : Entry}
    (found : w.files.entryAt? q = some entry) : w₁.files.entryAt? q = some entry := by
  rcases widened.entries q with same | ⟨absent, -⟩
  · exact same.trans found
  · rw [absent] at found
    cases found

theorem Widened.locate (widened : Widened p w w₁) {r : Path} {q : Place} {entry : Entry}
    (led : w.locate r false = .ok ⟨q, some entry⟩) : w₁.locate r false = .ok ⟨q, some entry⟩ := by
  have found : some entry = w.files.entryAt? q := Workspace.entry_of_locate led
  have later : w₁.locate r false = .ok ⟨q, w₁.files.entryAt? q⟩ := by
    refine Workspace.locate_kept led widened.current (fun _ => widened.kept) (fun q member => ?_) nofun
    obtain ⟨target, link⟩ := FileTree.isLink_of_mem_linksOn member
    rw [widened.kept link, link]
  rw [later, widened.kept found.symm]

theorem Widened.trans (first : Widened p w w₁) (second : Widened p w₁ w₂) : Widened p w w₂ where
  current := second.current.trans first.current
  environment := second.environment.trans first.environment
  entries q := by
    rcases second.entries q with same | ⟨absent, folder, around⟩
    · rcases first.entries q with before | ⟨absent, folder, parts, outside, led⟩
      · exact .inl (same.trans before)
      · exact .inr ⟨absent, same.trans folder, parts, outside, second.locate led⟩
    · rcases first.entries q with before | ⟨-, made, -⟩
      · exact .inr ⟨before.symm.trans absent, folder, around⟩
      · rw [made] at absent
        cases absent

theorem widened_of_makeFolder {refusal : FolderRefusal} {parts : List Text}
    (outside : parts <+: p.parts)
    (made : (makeFolder ⟨p.root, parts⟩ refusal).run w = (.ok (), w₁)) : Widened p w w₁ := by
  obtain ⟨last, spot, -, -, located, missing, rfl⟩ := makeFolder_eq_ok made
  have absent : w.files.entryAt? spot.place = none :=
    (Workspace.entry_of_locate located).symm.trans missing
  have entries : ∀ q, (w.put spot.place .folder).files.entryAt? q =
      if q = spot.place then some .folder else w.files.entryAt? q :=
    Workspace.entryAt?_put (Workspace.filled_of_absent absent)
  have led : (w.put spot.place .folder).locate ⟨p.root, parts⟩ false =
      .ok ⟨spot.place, (w.put spot.place .folder).files.entryAt? spot.place⟩ :=
    Workspace.locate_put_new absent located
  rw [entries, if_pos rfl] at led
  refine ⟨rfl, rfl, fun q => ?_⟩
  by_cases own : q = spot.place
  · refine .inr ⟨own ▸ absent, ?_, parts, outside, own ▸ led⟩
    rw [entries, if_pos own]
  · left
    rw [entries, if_neg own]

/-- Making folders only adds folders, also where it fails on the way. -/
theorem widened_of_ensureFolders {refusal : FolderRefusal} {result : Except FileError Unit}
    (done : (ensureFolders p refusal).run w = (result, w₁)) : Widened p w w₁ :=
  ensureFolders_leads (Widened p) (Widened.refl p) Widened.trans widened_of_makeFolder done

end Change

end TestSkeleton
