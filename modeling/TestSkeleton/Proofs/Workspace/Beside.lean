import TestSkeleton.Proofs.Workspace.SaveEach

/-! Files that are saved side by side in one folder: they go to different places, and their own paths
lead to them afterwards. -/

namespace TestSkeleton.Change

variable {job : Job} {w w₁ : Workspace}

/-- A path to a folder leads there still, unless it leads through a place that may have changed. -/
theorem KeptBut.locate_folder {places : List Place} (kept : KeptBut places w w₁) {p : Path}
    {outer : Place} (led : w.locate p = .ok ⟨outer, some .folder⟩)
    (stays : ∀ link ∈ w.linksOn p, link ∉ places) : w₁.locate p = .ok ⟨outer, some .folder⟩ := by
  have folder := kept.folders outer (Workspace.entry_of_locate led).symm
  have later : w₁.locate p = .ok ⟨outer, w₁.files.entryAt? outer⟩ := by
    refine Workspace.locate_kept led kept.current kept.folders (fun q member => ?_) fun _ target => ?_
    · obtain ⟨target, link⟩ := FileTree.isLink_of_mem_linksOn member
      rw [kept.entries q _ (stays q member) link, link]
    · rw [folder]
      exact nofun
  rw [later, folder]

theorem Job.Lands.keptBut_afterJobs {place : Place} (lands : job.Lands w place w₁)
    (jobs : List Job) : KeptBut (place :: landings jobs w₁) (job.surroundings w)
      (afterJobs (job :: jobs) w) := by
  have own : KeptBut (place :: landings jobs w₁) (job.surroundings w) w₁ :=
    lands.keptBut.weaken (by simp)
  have rest : KeptBut (place :: landings jobs w₁) w₁ (afterJobs jobs w₁) :=
    (Change.keptBut_afterJobs jobs w₁).weaken fun q member => List.mem_cons_of_mem _ member
  rw [lands.afterJobs_cons]
  exact own.trans rest

/-- The state in which a file is saved lies between the one in which the first is saved and the
last one. -/
theorem state_of_landing {first : Job} {jobs : List Job} {w : Workspace} {job : Job} {place : Place}
    (saved : (job, place) ∈ (first :: jobs).zip (landings (first :: jobs) w)) :
    ∃ v, KeptBut (landings (first :: jobs) w) (first.surroundings w) v ∧
      KeptBut (landings (first :: jobs) w) v (afterJobs (first :: jobs) w) ∧
      v.locate job.target false = .ok ⟨place, v.files.entryAt? place⟩ := by
  induction jobs generalizing first w with
  | nil =>
    rcases first.cases w with ⟨e, failed⟩ | ⟨end_, w₁, lands⟩
    · rw [landings_cons_of_error failed] at saved
      cases saved
    · rw [lands.landings_cons] at saved ⊢
      obtain ⟨rfl, rfl⟩ := Prod.mk.inj (List.mem_singleton.mp saved)
      exact ⟨_, .refl _ _, lands.keptBut_afterJobs [], job.locate_of_landing lands.landing⟩
  | cons second jobs ih =>
    rcases first.cases w with ⟨e, failed⟩ | ⟨end_, w₁, lands⟩
    · rw [landings_cons_of_error failed] at saved
      cases saved
    · rw [lands.landings_cons] at saved ⊢
      rcases List.mem_cons.mp saved with own | later
      · obtain ⟨rfl, rfl⟩ := Prod.mk.inj own
        exact ⟨_, .refl _ _, lands.keptBut_afterJobs (second :: jobs),
          job.locate_of_landing lands.landing⟩
      · obtain ⟨v, before, after, located⟩ := ih later
        have inside : ∀ q ∈ landings (second :: jobs) w₁, q ∈ end_ :: landings (second :: jobs) w₁ :=
          fun q member => List.mem_cons_of_mem _ member
        have own : KeptBut (end_ :: landings (second :: jobs) w₁) (first.surroundings w) w₁ :=
          lands.keptBut.weaken (by simp)
        rw [lands.afterJobs_cons]
        exact ⟨v, (own.trans ((second.widened w₁).keptBut _)).trans (before.weaken inside),
          after.weaken inside, located⟩

/-- Files that lie side by side hold their content under their own paths, when no link on the way to
their folder is a place where one of them goes. -/
theorem locate_afterJobs {first : Job} {jobs : List Job} {folder : Path} {outer : Place}
    (leads : (first.surroundings w).locate folder = .ok ⟨outer, some .folder⟩)
    (stays : ∀ link ∈ (first.surroundings w).linksOn folder, link ∉ landings (first :: jobs) w)
    {place : Place} (saved : (job, place) ∈ (first :: jobs).zip (landings (first :: jobs) w)) {name : Text}
    (target : job.target = ⟨folder.root, folder.parts ++ [name]⟩) (dot : name ≠ ['.'])
    (up : name ≠ Path.up) :
    (afterJobs (first :: jobs) w).locate job.target false =
      .ok ⟨place, (afterJobs (first :: jobs) w).files.entryAt? place⟩ := by
  obtain ⟨v, before, after, located⟩ := state_of_landing saved
  have then_ := before.locate_folder leads stays
  have finally_ := (before.trans after).locate_folder leads stays
  rw [target] at located ⊢
  obtain ⟨within, led⟩ := Workspace.locate_eq_ok_iff.mp located
  obtain ⟨short, outer', around, shape⟩ := FileTree.follow_append_single dot up led
  have base : v.base ⟨folder.root, folder.parts ++ [name]⟩ = v.base folder := rfl
  rw [base, (Workspace.locate_eq_ok_iff.mp then_).2] at around
  obtain rfl := (Spot.mk.inj (Except.ok.inj around)).1
  obtain rfl := (Spot.mk.inj shape).1
  exact Workspace.locate_eq_ok_iff.mpr ⟨within, FileTree.follow_append_of_folder dot up short
    (Workspace.locate_eq_ok_iff.mp finally_).2⟩

/-- Every place where a file goes bears the file's name. -/
theorem name_of_mem_landings {jobs : List Job} {w : Workspace}
    (plain : ∀ job ∈ jobs, ∃ name, job.target.parts.getLast? = some name ∧ name ≠ ['.'] ∧
      name ≠ Path.up) {q : Place} (member : q ∈ landings jobs w) :
    ∃ job ∈ jobs, q.getLast? = some job.target.name := by
  induction jobs generalizing w with
  | nil => cases member
  | cons job jobs ih =>
    rcases job.cases w with ⟨e, failed⟩ | ⟨place, w₁, lands⟩
    · rw [landings_cons_of_error failed] at member
      cases member
    · rw [lands.landings_cons] at member
      rcases List.mem_cons.mp member with rfl | later
      · obtain ⟨name, ends, dot, up⟩ := plain job List.mem_cons_self
        refine ⟨job, List.mem_cons_self, ?_⟩
        rw [Path.name, ends]
        exact Workspace.getLast?_place_of_locate ends dot up (job.locate_of_landing lands.landing)
      · obtain ⟨named, inside, ends⟩ :=
          ih (fun job inside => plain job (List.mem_cons_of_mem _ inside)) later
        exact ⟨named, List.mem_cons_of_mem _ inside, ends⟩

/-- Files of different names go to different places. -/
theorem nodup_landings {jobs : List Job} {w : Workspace}
    (plain : ∀ job ∈ jobs, ∃ name, job.target.parts.getLast? = some name ∧ name ≠ ['.'] ∧
      name ≠ Path.up) (distinct : (jobs.map fun job => job.target.name).Nodup) :
    (landings jobs w).Nodup := by
  induction jobs generalizing w with
  | nil => exact List.nodup_nil
  | cons job jobs ih =>
    rcases job.cases w with ⟨e, failed⟩ | ⟨place, w₁, lands⟩
    · rw [landings_cons_of_error failed]
      exact List.nodup_nil
    · obtain ⟨apart, later⟩ := List.nodup_cons.mp distinct
      have others : ∀ job ∈ jobs, _ := fun job inside => plain job (List.mem_cons_of_mem _ inside)
      rw [lands.landings_cons, List.nodup_cons]
      refine ⟨fun again => ?_, ih others later⟩
      obtain ⟨other, listed, ends⟩ := name_of_mem_landings others again
      obtain ⟨name, last, dot, up⟩ := plain job List.mem_cons_self
      have own := Workspace.getLast?_place_of_locate last dot up
        (job.locate_of_landing lands.landing)
      rw [own] at ends
      have same : job.target.name = other.target.name := by
        rw [Path.name, last]
        exact Option.some.inj ends
      exact apart (List.mem_map.mpr ⟨other, listed, same.symm⟩)

end TestSkeleton.Change
