import TestSkeleton.Proofs.Run.Repeat
import TestSkeleton.Proofs.Workspace.Beside

/-! What a run changes: nothing when it saves nothing, and else its test files and the folders around
them. -/

namespace TestSkeleton

open Text Workspace

section Runs

variable (tag : Text) (start : Path) (policy : Option Policy) (w : Workspace)

/-- A run that saves nothing is a look at the workspace. -/
theorem run_generateTests_dry : (generateTests tag start policy false).run w =
    (Run.prepare w start policy >>= Run.result, w) := by
  rw [generateTests, run_bind, Task.run_look]
  cases Run.prepare w start policy with
  | error e => rfl
  | ok r =>
    dsimp only
    rw [Run.finish, run_bind, Task.run_ofExcept, ok_bind]
    cases r.result <;> rfl

/-- A run that saves its files is the same look, and then saves what it gave. -/
theorem run_generateTests_saving : (generateTests tag start policy true).run w =
    match Run.prepare w start policy >>= Run.result with
    | .error e => (.error e, w)
    | .ok g =>
      (((Change.saveAll tag g.files).run w).1.mapError .file >>= fun _ => .ok g,
        ((Change.saveAll tag g.files).run w).2) := by
  rw [generateTests, run_bind, Task.run_look]
  cases Run.prepare w start policy with
  | error e => rfl
  | ok r =>
    dsimp only
    rw [Run.finish, run_bind, Task.run_ofExcept, ok_bind]
    cases r.result with
    | error e => rfl
    | ok g =>
      dsimp only
      rw [if_pos rfl, run_bind, Task.change, run_bind, run_get]
      dsimp only
      rcases (Change.saveAll tag g.files).run w with ⟨result, w'⟩
      cases result <;> rfl

variable {tag start policy w} in
/-- A run that fails had nothing to save and changed nothing, or failed in saving. -/
theorem run_generateTests_eq_error {e : Failure} {w' : Workspace}
    (failed : (generateTests tag start policy true).run w = (.error e, w')) :
    Run.prepare w start policy >>= Run.result = .error e ∧ w' = w ∨
    ∃ g cause, Run.prepare w start policy >>= Run.result = .ok g ∧ e = .file cause ∧
      (Change.saveAll tag g.files).run w = (.error cause, w') := by
  rw [run_generateTests_saving] at failed
  cases made : Run.prepare w start policy >>= Run.result with
  | error e' =>
    rw [made] at failed
    cases failed
    exact .inl ⟨rfl, rfl⟩
  | ok g =>
    rw [made] at failed
    dsimp only at failed
    cases saved : (Change.saveAll tag g.files).run w with
    | mk result w₁ =>
      rw [saved] at failed
      cases result with
      | ok _ => cases failed
      | error cause =>
        cases failed
        exact .inr ⟨g, cause, rfl, rfl, saved⟩

end Runs

/-- Files whose paths lead into one folder, each by a name of its own. -/
structure SideBySide (folder : Path) (files : List TestFile) : Prop where
  target : ∀ file ∈ files, ∃ name, Path.IsName name ∧
    Path.read file.path = ⟨folder.root, folder.parts ++ [name]⟩
  distinct : (files.map fun file => (Path.read file.path).name).Nodup

/-- The files of a run lie side by side, whatever the folder for test files is. -/
theorem Run.sideBySide {w : Workspace} {start : Path} {policy : Option Policy} {g : Generation}
    (made : prepare w start policy >>= result = .ok g) : ∃ folder, SideBySide folder g.files := by
  obtain ⟨r, prepared, made⟩ := bind_eq_ok.mp made
  obtain ⟨root, p, -, -, analyzed, t, -, generated⟩ := Run.exists_of_prepare prepared
  obtain ⟨generation, finished, rfl⟩ := Run.result_eq_ok made
  rw [generated] at finished
  obtain ⟨whole, resolved⟩ : ∃ whole, w.expandHome root >>= w.resolve = .ok whole := by
    obtain ⟨p, expanded, rest⟩ := bind_eq_ok.mp analyzed
    obtain ⟨whole, resolved, -⟩ := bind_eq_ok.mp rest
    exact ⟨whole, bind_eq_ok.mpr ⟨p, expanded, resolved⟩⟩
  have scopes := Analysis.plain_scope resolved analyzed
  have front := Path.isFront_text t.outputFolder.root t.outputFolder.parts
  obtain ⟨folder, reads⟩ := Path.exists_read_append front
  have placed : ∀ file ∈ generation.files, ∃ name, Path.IsName name ∧
      file.path = t.outputFolder.root.text ++ t.outputFolder.parts.flatMap (· ++ ['/']) ++ name := by
    intro file member
    obtain ⟨name, isName, -, path⟩ :=
      GenerationRun.exists_name_of_mem_files scopes finished file member
    exact ⟨name, isName, path.trans (Path.text_append_name ..)⟩
  refine ⟨folder, fun file member => ?_, ?_⟩
  · obtain ⟨name, isName, path⟩ := placed file member
    exact ⟨name, isName, by rw [path, reads name isName]⟩
  · have distinct := GenerationRun.nodup_files_paths finished
    have paths : generation.files.map (·.path) =
        (generation.files.map fun file => (Path.read file.path).name).map fun name =>
          t.outputFolder.root.text ++ t.outputFolder.parts.flatMap (· ++ ['/']) ++ name := by
      rw [List.map_map]
      refine List.map_congr_left fun file member => ?_
      obtain ⟨name, isName, path⟩ := placed file member
      have named : (Path.read file.path).name = name := by
        rw [path, reads name isName, Path.name, List.getLast?_concat]
        rfl
      rw [Function.comp_apply, named, path]
    rw [paths] at distinct
    exact distinct.of_map _

namespace SideBySide

open Change

/-- The saving of files whose surroundings refuse nothing. -/
def jobs (tag : Text) (files : List TestFile) : List Job := files.map (·, { tag })

theorem mem_zip_jobs {tag : Text} {files : List TestFile} {places : List Place} {file : TestFile}
    {place : Place} (listed : (file, place) ∈ files.zip places) :
    ((file, { tag }), place) ∈ (jobs tag files).zip places := by
  rw [jobs, List.zip_map_left]
  exact List.mem_map.mpr ⟨(file, place), listed, rfl⟩

variable {folder : Path} {files : List TestFile} (beside : SideBySide folder files) {tag : Text}
  {w w' : Workspace}

theorem eq_afterJobs {result : Except FileError (List Path)}
    (saved : (saveAll tag files).run w = (result, w')) : w' = afterJobs (jobs tag files) w := by
  rw [afterJobs, jobs, ← saveAll, saved]

include beside

theorem nodup_landings (tag : Text) (w : Workspace) : (landings (jobs tag files) w).Nodup := by
  refine Change.nodup_landings ?_ ?_
  · intro job member
    obtain ⟨file, listed, rfl⟩ := List.mem_map.mp member
    obtain ⟨name, isName, read⟩ := beside.target file listed
    refine ⟨name, ?_, isName.2.1, isName.2.2.1⟩
    rw [Job.target, read]
    exact List.getLast?_concat ..
  · rw [jobs, List.map_map]
    exact beside.distinct

/-- Saved files hold their content under their own paths, unless one of them takes the place of a link
on the way to their folder. -/
theorem locate_saved {paths : List Path} (saved : (saveAll tag files).run w = (.ok paths, w'))
    {file : TestFile} {place : Place}
    (listed : (file, place) ∈ files.zip (landings (jobs tag files) w))
    (stays : ∀ link ∈ (Job.surroundings (file, { tag }) w).linksOn (Path.read file.path).parent,
      link ∉ landings (jobs tag files) w) :
    w'.locate (Path.read file.path) false = .ok ⟨place, w'.files.entryAt? place⟩ := by
  have parent : ∀ file ∈ files, (Path.read file.path).parent = folder := by
    intro file member
    obtain ⟨name, -, read⟩ := beside.target file member
    rw [read, Path.parent, List.dropLast_concat]
  have around : ∀ file ∈ files, Job.surroundings (file, { tag }) w =
      ((ensureFolders folder).run w).2 := by
    intro file member
    rw [Job.surroundings, Job.target, parent file member]
  have member := (List.of_mem_zip listed).1
  obtain ⟨name, isName, read⟩ := beside.target file member
  rw [around file member, parent file member] at stays
  cases files with
  | nil => cases member
  | cons first rest =>
    have made : ∃ outer, (Job.surroundings (first, { tag }) w).locate folder =
        .ok ⟨outer, some .folder⟩ := by
      rcases Job.cases (first, { tag }) w with ⟨e, failed⟩ | ⟨_, _, lands⟩
      · have broken : (saveAll tag (first :: rest)).run w = (.error e, _) :=
          run_saveEach_cons_of_error failed _
        rw [saved] at broken
        cases broken
      · rw [← parent first List.mem_cons_self]
        exact locate_of_ensureFolders lands.made
    obtain ⟨outer, leads⟩ := made
    rw [← around first List.mem_cons_self] at stays
    rw [eq_afterJobs saved]
    exact locate_afterJobs leads stays (mem_zip_jobs listed) read isName.2.1 isName.2.2.1

omit beside in
/-- What the saving puts anywhere else is a folder that one of the files made around it. -/
theorem entryAt?_saved {q : Place} (apart : q ∉ landings (jobs tag files) w) :
    (afterJobs (jobs tag files) w).files.entryAt? q = w.files.entryAt? q ∨
    w.files.entryAt? q = none ∧ (afterJobs (jobs tag files) w).files.entryAt? q = some .folder ∧
      ∃ before file after, files = before ++ file :: after ∧
        Job.Makes (file, { tag }) (afterJobs (jobs tag before) w) q := by
  rcases entryAt?_afterJobs _ w apart with same |
    ⟨absent, folder, before, job, rest, shape, -, makes⟩
  · exact .inl same
  · obtain ⟨front, back, split, rfl, tail⟩ := List.map_eq_append_iff.mp shape
    obtain ⟨file, others, rfl, rfl, -⟩ := List.map_eq_cons_iff.mp tail
    exact .inr ⟨absent, folder, front, file, others, split, makes⟩

end SideBySide

/-- A run that saves nothing leaves the workspace as it is, and tells what a run that saves its files
gives. That run puts each file where its path leads, and changes nothing else but for the folders
around the files. A file's own path leads to it afterwards, unless a file took the place of a link on
the way to it. -/
theorem generateTests_effects (tag : Text) (start : Path) (policy : Option Policy) (w : Workspace) :
    ((generateTests tag start policy false).run w).2 = w ∧
    (∀ e w', (generateTests tag start policy true).run w = (.error e, w') →
      (generateTests tag start policy false).run w = (.error e, w) ∧ w' = w ∨
      ∃ g cause, (generateTests tag start policy false).run w = (.ok g, w) ∧ e = .file cause ∧
        (Change.saveAll tag g.files).run w = (.error cause, w')) ∧
    ∀ g w', (generateTests tag start policy true).run w = (.ok g, w') →
      (generateTests tag start policy false).run w = (.ok g, w) ∧
      ∃ places : List Place, places.Nodup ∧ places.length = g.files.length ∧
        (∀ file place, (file, place) ∈ g.files.zip places →
          w'.files.entryAt? place = some (.file (Utf8.encode file.content)) ∧
          ((∀ link ∈ (Change.Job.surroundings (file, { tag }) w).linksOn
              (Path.read file.path).parent, link ∉ places) →
            w'.locate (Path.read file.path) false =
              .ok ⟨place, some (.file (Utf8.encode file.content))⟩)) ∧
        (∀ q, q ∉ places → w'.files.entryAt? q = w.files.entryAt? q ∨
          w.files.entryAt? q = none ∧ w'.files.entryAt? q = some .folder ∧
            ∃ before file after, g.files = before ++ file :: after ∧
              Change.Job.Makes (file, { tag })
                (Change.afterJobs (SideBySide.jobs tag before) w) q) ∧
        w'.current = w.current ∧ w'.environment = w.environment := by
  rw [run_generateTests_dry]
  refine ⟨rfl, fun e w' failed => ?_, fun g w' done => ?_⟩
  · rcases run_generateTests_eq_error failed with ⟨found, rfl⟩ | ⟨g, cause, found, rfl, saved⟩
    · exact .inl ⟨by rw [found], rfl⟩
    · exact .inr ⟨g, cause, by rw [found], rfl, saved⟩
  · obtain ⟨r, paths, prepared, result, saved⟩ := run_generateTests_eq_ok.mp done
    have made : Run.prepare w start policy >>= Run.result = .ok g := bind_eq_ok.mpr ⟨r, prepared, result⟩
    refine ⟨by rw [made], ?_⟩
    obtain ⟨folder, beside⟩ := Run.sideBySide made
    have distinct := beside.nodup_landings tag w
    have after := SideBySide.eq_afterJobs saved
    have kept := Change.keptBut_afterJobs (SideBySide.jobs tag g.files) w
    have all : ((Change.saveEach (SideBySide.jobs tag g.files)).run w).1 = .ok paths := by
      rw [SideBySide.jobs, ← Change.saveAll, saved]
    refine ⟨Change.landings (SideBySide.jobs tag g.files) w, distinct, ?_, ?_, ?_, ?_, ?_⟩
    · rw [(Change.paths_of_saveEach all).1, SideBySide.jobs, List.length_map]
    · intro file place listed
      have content := Change.content_afterJobs distinct (SideBySide.mem_zip_jobs listed)
      rw [← after] at content
      refine ⟨content, fun stays => ?_⟩
      rw [beside.locate_saved saved listed stays, content]
      rfl
    · intro q apart
      rw [after]
      exact SideBySide.entryAt?_saved apart
    · rw [after, kept.current]
    · rw [after, kept.environment]

/-- A run whose result and workspace pass a check. -/
theorem Task.exists_of_run {α : Type} {c : Task α} {w : Workspace} (p : α → Workspace → Bool)
    (ends : (c.run w).1.toOption.any (fun a => p a (c.run w).2) = true) :
    ∃ a w', c.run w = (.ok a, w') ∧ p a w' = true := by
  obtain ⟨a, result, passes⟩ := exists_ok_of_toOption ends
  exact ⟨a, _, Prod.ext result rfl, passes⟩

/-- The tests of a project are made where a run without saving says they would be. -/
theorem single_effects : ∃ g w',
    (singleRun "aaaaaaaa".toList "tests".toList).run single = (.ok g, w') ∧ g.files ≠ [] ∧
    (generateTests "aaaaaaaa".toList singleStart (some (singlePolicy "tests".toList)) false).run
      single = (.ok g, single) ∧
    ∀ file ∈ g.files, ∃ place, w'.locate (Path.read file.path) false =
      .ok ⟨place, some (.file (Utf8.encode file.content))⟩ := by
  obtain ⟨g, w', done, shape⟩ := Task.exists_of_run
    (c := singleRun "aaaaaaaa".toList "tests".toList) (w := single)
    (fun g _ => !g.files.isEmpty && g.files.all fun file =>
      ((Change.Job.surroundings (file, { tag := "aaaaaaaa".toList }) single).linksOn
        (Path.read file.path).parent).isEmpty) (by decide +kernel)
  rw [Bool.and_eq_true, List.all_eq_true] at shape
  obtain ⟨filled, free⟩ := shape
  obtain ⟨-, -, frame⟩ := generateTests_effects "aaaaaaaa".toList singleStart
    (some (singlePolicy "tests".toList)) single
  obtain ⟨dry, places, -, length, saved, -⟩ := frame g w' done
  refine ⟨g, w', done, by simpa using filled, dry, fun file member => ?_⟩
  obtain ⟨i, inside, own⟩ := List.mem_iff_getElem.mp member
  have listed : (file, places[i]) ∈ g.files.zip places := by
    refine List.mem_iff_getElem.mpr ⟨i, by simp [length, inside], ?_⟩
    rw [List.getElem_zip, own]
  refine ⟨places[i], (saved file _ listed).2 fun link passed => ?_⟩
  rw [List.isEmpty_iff.mp (free file member)] at passed
  cases passed

/-- The project, and a link to it that has the name of its test file. -/
def linked : Workspace :=
  { single with
    files := ⟨single.files.entries ++ [(["integration_test.v".toList], .link ['p'])]⟩ }

/-- Where the way to the folder for test files leads through a link that a test file takes the place
of, the file's path leads nowhere afterwards. -/
theorem linked_path_cut :
    ∃ g w', (singleRun "aaaaaaaa".toList "/integration_test.v/..".toList).run linked = (.ok g, w') ∧
      ∃ file ∈ g.files, (w'.locate (Path.read file.path) false).toOption = none := by
  obtain ⟨g, w', done, cut⟩ := Task.exists_of_run
    (c := singleRun "aaaaaaaa".toList "/integration_test.v/..".toList) (w := linked)
    (fun g w' => g.files.any fun file =>
      (w'.locate (Path.read file.path) false).toOption.isNone) (by decide +kernel)
  obtain ⟨file, member, nowhere⟩ := List.any_eq_true.mp cut
  exact ⟨g, w', done, file, member, Option.isNone_iff_eq_none.mp nowhere⟩

end TestSkeleton
