import TestSkeleton.Proofs.Workspace.Save
import TestSkeleton.Proofs.Workspace.Widen

/-! Saving one file in any tree, whatever step its surroundings refuse: it is saved whole, where its
path leads, or nothing is left of it but the folders made for it. -/

namespace TestSkeleton.Change

section One

variable {w w₁ w' : Workspace} {attempt : Attempt} {file : TestFile}

theorem rename_cases {source target : Path} {refusal : Option FileError}
    {result : Except FileError Unit} (done : (rename source target refusal).run w = (result, w')) :
    (∃ e, result = .error e ∧ w' = w) ∨
    ∃ origin entry goal, w.locate source false = .ok origin ∧ origin.entry = some entry ∧
      w.locate target false = .ok goal ∧ target.parts.getLast?.all (· = Path.up) = false ∧
      goal.entry ≠ some .folder ∧ result = .ok () ∧
      w' = { w with files := (w.files.erase origin.place).put goal.place entry } := by
  rw [run_rename] at done
  cases located : w.locate source false with
  | error fault =>
    rw [located] at done
    cases done
    exact .inl ⟨_, rfl, rfl⟩
  | ok origin =>
    cases led : w.locate target false with
    | error fault =>
      rw [located, led] at done
      cases done
      exact .inl ⟨_, rfl, rfl⟩
    | ok goal =>
      rw [located, led] at done
      dsimp only at done
      split at done
      · cases done
        exact .inl ⟨_, rfl, rfl⟩
      · rename_i entry there
        split at done
        · cases done
          exact .inl ⟨_, rfl, rfl⟩
        · rename_i step
          split at done
          · cases done
            exact .inl ⟨_, rfl, rfl⟩
          · rename_i closed
            split at done
            · cases done
              exact .inl ⟨_, rfl, rfl⟩
            · obtain ⟨rfl, rfl⟩ := Prod.mk.inj done
              exact .inr ⟨origin, entry, goal, rfl, there, rfl, by simpa using step, closed, rfl, rfl⟩

/-- A new file that is taken away again leaves the workspace as it was. -/
theorem run_removeFile_new {p : Path} {place : Place} {content : Bytes} {e : FileError}
    (absent : w.locate p false = .ok ⟨place, none⟩) :
    (do removeFile p; throw e : Change Unit).run (w.put place (.file content)) = (.error e, w) := by
  have missing : w.files.entryAt? place = none := (Workspace.entry_of_locate absent).symm
  have erased : (w.put place (.file content)).files.erase place = w.files :=
    FileTree.erase_put (Workspace.filled_of_absent missing) missing
  rw [run_bind, removeFile, run_bind, run_locate, Workspace.locate_put_new missing absent]
  change (Except.error e, { w with files := (w.put place (.file content)).files.erase place }) = _
  rw [erased]

/-- A temporary file that takes a path's name over is where the path leads, and nowhere else. -/
theorem rename_temporary {tag : Text} {target : Path} (valid : Path.AreParts target.parts)
    {place : Place} {content : Bytes} {refusal : Option FileError} {v : Workspace}
    (free : w.locate (temporary tag v target) false = .ok ⟨place, none⟩)
    {result : Except FileError Unit}
    (done : (rename (temporary tag v target) target refusal).run (w.put place (.file content)) =
      (result, w')) :
    (∃ e, result = .error e ∧ w' = w.put place (.file content)) ∨
    ∃ spot, w.locate target false = .ok spot ∧ spot.entry ≠ some .folder ∧ result = .ok () ∧
      w' = w.put spot.place (.file content) := by
  have missing : w.files.entryAt? place = none := (Workspace.entry_of_locate free).symm
  have filled := Workspace.filled_of_absent missing
  rcases rename_cases done with failed |
    ⟨origin, entry, goal, source, there, led, step, closed, rfl, rfl⟩
  · exact .inl failed
  · -- The two files bear different names, so that they are not in one place.
    have apart : goal.place ≠ place := by
      cases ends : target.parts.getLast? with
      | none => simp [ends] at step
      | some last =>
        have up : last ≠ Path.up := by simpa [ends] using step
        have dot : last ≠ ['.'] := (valid last (List.mem_of_getLast? ends)).2.1
        have own := Workspace.getLast?_place_of_locate ends dot up led
        have beside : (temporary tag v target).parts.getLast? = some (temporaryName tag last) := by
          simp [temporary, temporaryName, Path.append, Path.isAbsolute, Path.name, ends]
        obtain ⟨dot', up'⟩ := isStep_temporaryName tag last
        have other := Workspace.getLast?_place_of_locate beside dot' up' free
        intro same
        rw [same, other] at own
        exact temporaryName_ne tag last (Option.some.inj own)
    rw [Workspace.locate_put_new missing free] at source
    obtain rfl := Except.ok.inj source
    rw [Workspace.entryAt?_put filled, if_pos rfl] at there
    obtain rfl := Option.some.inj there
    refine .inr ⟨goal, Workspace.locate_of_put_new missing led apart, closed, rfl, ?_⟩
    have erased : (w.put place (.file content)).files.erase place = w.files :=
      FileTree.erase_put filled missing
    dsimp only
    rw [erased]
    rfl

/-- A file is saved where its path leads once its folders are made, or only the folders are made. -/
theorem save_cases (made : (ensureFolders (Path.read file.path).parent attempt.folder).run w =
      (.ok (), w₁)) :
    (∃ e, (save attempt file).run w = (.error e, w₁)) ∨
    ∃ spot, w₁.locate (Path.read file.path) false = .ok spot ∧ spot.entry ≠ some .folder ∧
      (save attempt file).run w = (.ok (Path.read file.path),
        w₁.put spot.place (.file (Utf8.encode file.content))) := by
  rw [save, run_bind, made]
  dsimp only
  rw [run_bind, run_get]
  dsimp only
  rw [run_bind]
  cases opened : (openNew (temporary attempt.tag w₁ (Path.read file.path)) attempt.opening).run w₁ with
  | mk result w₂ =>
    cases result with
    | error e =>
      rw [run_openNew_error opened]
      exact .inl ⟨e, rfl⟩
    | ok place =>
      obtain ⟨free, -, rfl⟩ := openNew_eq_ok.mp opened
      dsimp only
      rw [run_bind, run_tryCatch, run_bind, run_writeOpen]
      cases attempt.writing with
      | some failure =>
        obtain ⟨written, e⟩ := failure
        dsimp only
        rw [Workspace.put_put, run_removeFile_new free]
        exact .inl ⟨e, rfl⟩
      | none =>
        dsimp only
        rw [Workspace.put_put]
        cases moved : (rename (temporary attempt.tag w₁ (Path.read file.path)) (Path.read file.path)
            attempt.moving).run (w₁.put place (.file (Utf8.encode file.content))) with
        | mk result w₃ =>
          rcases rename_temporary (Path.areParts_names file.path) free moved with
            ⟨e, rfl, rfl⟩ | ⟨spot, led, closed, rfl, rfl⟩
          · dsimp only
            rw [run_removeFile_new free]
            exact .inl ⟨e, rfl⟩
          · exact .inr ⟨spot, led, closed, rfl⟩

end One

/-! Saving files in order, whatever steps their surroundings refuse. The files before the first that
fails are saved, and all else stays, but for folders made around them. -/

/-- A file to be saved, and how that goes. -/
abbrev Job := TestFile × Attempt

namespace Job

def target (job : Job) : Path := Path.read job.1.path

def content (job : Job) : Bytes := Utf8.encode job.1.content

/-- The workspace with the folders around a job's file made, as far as they can be. -/
def surroundings (job : Job) (w : Workspace) : Workspace :=
  ((ensureFolders job.target.parent job.2.folder).run w).2

/-- Where the path of a job's file leads when its folders are made. A link at its end is not
followed. -/
def landing? (job : Job) (w : Workspace) : Option Place :=
  ((job.surroundings w).locate job.target false).toOption.map (·.place)

theorem locate_of_landing (job : Job) {w : Workspace} {place : Place}
    (lands : job.landing? w = some place) : (job.surroundings w).locate job.target false =
      .ok ⟨place, (job.surroundings w).files.entryAt? place⟩ := by
  rw [landing?] at lands
  cases located : (job.surroundings w).locate job.target false with
  | error fault =>
    rw [located] at lands
    cases lands
  | ok spot =>
    rw [located] at lands
    obtain rfl := Option.some.inj lands
    rw [← Workspace.entry_of_locate located]

/-- A folder that was missing and is made where a path around a job's file leads. -/
structure Makes (job : Job) (w : Workspace) (q : Place) : Prop where
  absent : w.files.entryAt? q = none
  folder : (job.surroundings w).files.entryAt? q = some .folder
  around : ∃ parts, parts <+: job.target.parent.parts ∧
    (job.surroundings w).locate ⟨job.target.root, parts⟩ false = .ok ⟨q, some .folder⟩

end Job

/-- Where the files go that are saved, in order. -/
def landings : List Job → Workspace → List Place
  | [], _ => []
  | job :: jobs, w =>
    match (save job.2 job.1).run w with
    | (.ok _, w') => (job.landing? w).toList ++ landings jobs w'
    | (.error _, _) => []

/-- The workspace after jobs. -/
def afterJobs (jobs : List Job) (w : Workspace) : Workspace := ((saveEach jobs).run w).2

variable {job : Job} {w w₁ : Workspace}

theorem Job.widened (job : Job) (w : Workspace) :
    Widened job.target.parent w (job.surroundings w) :=
  widened_of_ensureFolders (Prod.ext rfl rfl)

theorem Job.entryAt?_surroundings (job : Job) (w : Workspace) (q : Place) :
    (job.surroundings w).files.entryAt? q = w.files.entryAt? q ∨ job.Makes w q := by
  rcases (job.widened w).entries q with same | ⟨absent, folder, around⟩
  · exact .inl same
  · exact .inr ⟨absent, folder, around⟩

/-- A job that leaves its file in a place. -/
structure Job.Lands (job : Job) (w : Workspace) (place : Place) (w₁ : Workspace) : Prop where
  made : (ensureFolders job.target.parent job.2.folder).run w = (.ok (), job.surroundings w)
  saved : (save job.2 job.1).run w = (.ok job.target, w₁)
  landing : job.landing? w = some place
  closed : (job.surroundings w).files.entryAt? place ≠ some .folder
  after : w₁ = (job.surroundings w).put place (.file job.content)

/-- A job leaves its file where its path leads, or nothing but folders. -/
theorem Job.cases (job : Job) (w : Workspace) :
    (∃ e, (save job.2 job.1).run w = (.error e, job.surroundings w)) ∨
      ∃ place w₁, job.Lands w place w₁ := by
  cases made : (ensureFolders (Path.read job.1.path).parent job.2.folder).run w with
  | mk folders w₁ =>
    have around : job.surroundings w = w₁ := by rw [Job.surroundings, Job.target, made]
    cases folders with
    | error e => exact .inl ⟨e, by rw [save, run_bind, made, around]⟩
    | ok _ =>
      rcases save_cases made with ⟨e, failed⟩ | ⟨spot, led, closed, saved⟩
      · exact .inl ⟨e, by rw [failed, around]⟩
      · refine .inr ⟨spot.place, _, ?_, saved, ?_, ?_, ?_⟩
        · rw [around]
          exact made
        · rw [Job.landing?, around, Job.target, led]
          rfl
        · rwa [around, ← Workspace.entry_of_locate led]
        · rw [around]
          rfl

theorem run_saveEach_cons_of_error {e : FileError}
    (failed : (save job.2 job.1).run w = (.error e, w₁)) (jobs : List Job) :
    (saveEach (job :: jobs)).run w = (.error e, w₁) := by
  rw [saveEach, List.mapM_cons, run_bind, failed]

theorem landings_cons_of_error {e : FileError}
    (failed : (save job.2 job.1).run w = (.error e, w₁)) (jobs : List Job) :
    landings (job :: jobs) w = [] := by
  rw [landings, failed]

namespace Job.Lands

variable {place : Place} (lands : job.Lands w place w₁)

include lands

theorem run_saveEach_cons (jobs : List Job) :
    (saveEach (job :: jobs)).run w =
      (((saveEach jobs).run w₁).1.map (job.target :: ·), ((saveEach jobs).run w₁).2) := by
  rw [saveEach, List.mapM_cons, run_bind, lands.saved]
  dsimp only
  rw [run_bind, ← saveEach]
  rcases (saveEach jobs).run w₁ with ⟨result, w₂⟩
  cases result <;> rfl

theorem landings_cons (jobs : List Job) :
    landings (job :: jobs) w = place :: landings jobs w₁ := by
  rw [landings, lands.saved, lands.landing]
  rfl

theorem afterJobs_cons (jobs : List Job) : afterJobs (job :: jobs) w = afterJobs jobs w₁ := by
  rw [afterJobs, lands.run_saveEach_cons, afterJobs]

theorem entryAt? (q : Place) : w₁.files.entryAt? q =
    if q = place then some (.file job.content) else (job.surroundings w).files.entryAt? q := by
  have filled : place ≠ [] := by
    rintro rfl
    exact lands.closed rfl
  rw [lands.after, Workspace.entryAt?_put filled]

end Job.Lands

/-- Whatever is not in one of some places is there still, and so are all folders. -/
structure KeptBut (places : List Place) (w w' : Workspace) : Prop where
  current : w'.current = w.current
  environment : w'.environment = w.environment
  folders : ∀ q, w.files.entryAt? q = some .folder → w'.files.entryAt? q = some .folder
  entries : ∀ q entry, q ∉ places → w.files.entryAt? q = some entry →
    w'.files.entryAt? q = some entry

theorem KeptBut.trans {places : List Place} {w₂ : Workspace} (first : KeptBut places w w₁)
    (second : KeptBut places w₁ w₂) : KeptBut places w w₂ where
  current := second.current.trans first.current
  environment := second.environment.trans first.environment
  folders q folder := second.folders q (first.folders q folder)
  entries q entry apart found := second.entries q entry apart (first.entries q entry apart found)

theorem KeptBut.weaken {places : List Place} (kept : KeptBut places w w₁) {more : List Place}
    (inside : ∀ q ∈ places, q ∈ more) : KeptBut more w w₁ where
  current := kept.current
  environment := kept.environment
  folders := kept.folders
  entries q entry apart := kept.entries q entry fun member => apart (inside q member)

theorem Widened.keptBut {p : Path} (widened : Widened p w w₁) (places : List Place) :
    KeptBut places w w₁ where
  current := widened.current
  environment := widened.environment
  folders _ := widened.kept
  entries _ _ _ := widened.kept

theorem Job.Lands.keptBut {place : Place} (lands : job.Lands w place w₁) :
    KeptBut [place] (job.surroundings w) w₁ where
  current := by rw [lands.after]; rfl
  environment := by rw [lands.after]; rfl
  folders q folder := by
    rw [lands.entryAt?, if_neg, folder]
    rintro rfl
    exact lands.closed folder
  entries q entry apart found := by
    rw [lands.entryAt?, if_neg fun same => apart (List.mem_singleton.mpr same), found]

/-- Saving leaves all that is not where a file goes. -/
theorem keptBut_afterJobs (jobs : List Job) (w : Workspace) :
    KeptBut (landings jobs w) w (afterJobs jobs w) := by
  induction jobs generalizing w with
  | nil => exact ⟨rfl, rfl, fun _ => id, fun _ _ _ => id⟩
  | cons job jobs ih =>
    have widened := job.widened w
    rcases job.cases w with ⟨e, failed⟩ | ⟨place, w₁, lands⟩
    · rw [afterJobs, run_saveEach_cons_of_error failed]
      exact widened.keptBut _
    · rw [lands.afterJobs_cons, lands.landings_cons]
      have own : KeptBut (place :: landings jobs w₁) (job.surroundings w) w₁ :=
        lands.keptBut.weaken (by simp)
      have rest : KeptBut (place :: landings jobs w₁) w₁ (afterJobs jobs w₁) :=
        (ih w₁).weaken fun q member => List.mem_cons_of_mem _ member
      exact ((widened.keptBut _).trans own).trans rest

theorem KeptBut.refl (places : List Place) (w : Workspace) : KeptBut places w w :=
  ⟨rfl, rfl, fun _ => id, fun _ _ _ => id⟩

/-- Where no file goes, there is what was there, or a folder made around a file on the way. -/
theorem entryAt?_afterJobs (jobs : List Job) (w : Workspace) {q : Place}
    (apart : q ∉ landings jobs w) :
    (afterJobs jobs w).files.entryAt? q = w.files.entryAt? q ∨
    w.files.entryAt? q = none ∧ (afterJobs jobs w).files.entryAt? q = some .folder ∧
      ∃ before job after, jobs = before ++ job :: after ∧
        before.length ≤ (landings jobs w).length ∧ job.Makes (afterJobs before w) q := by
  induction jobs generalizing w with
  | nil => exact .inl rfl
  | cons job jobs ih =>
    have kept := keptBut_afterJobs (job :: jobs) w
    rcases job.entryAt?_surroundings w q with same | makes
    · rcases job.cases w with ⟨e, failed⟩ | ⟨place, w₁, lands⟩
      · rw [afterJobs, run_saveEach_cons_of_error failed]
        exact .inl same
      · rw [lands.landings_cons] at apart ⊢
        obtain ⟨other, later⟩ := not_or.mp (mt List.mem_cons.mpr apart)
        have here : w₁.files.entryAt? q = w.files.entryAt? q := by
          rw [lands.entryAt?, if_neg other, same]
        rw [lands.afterJobs_cons, ← here]
        rcases ih w₁ later with kept | ⟨absent, folder, before, maker, after, rfl, early, makes⟩
        · exact .inl kept
        · refine .inr ⟨absent, folder, job :: before, maker, after, rfl, by simpa using early, ?_⟩
          rw [lands.afterJobs_cons]
          exact makes
    · right
      refine ⟨makes.absent, ?_, [], job, jobs, rfl, Nat.zero_le _, makes⟩
      rcases job.cases w with ⟨e, failed⟩ | ⟨place, w₁, lands⟩
      · rw [afterJobs, run_saveEach_cons_of_error failed]
        exact makes.folder
      · rw [lands.afterJobs_cons]
        exact (keptBut_afterJobs jobs w₁).folders q (lands.keptBut.folders q makes.folder)

/-- The files that are saved hold their content in the end, unless two of them go to one place. -/
theorem content_afterJobs {jobs : List Job} {w : Workspace} (distinct : (landings jobs w).Nodup)
    {job : Job} {place : Place} (saved : (job, place) ∈ jobs.zip (landings jobs w)) :
    (afterJobs jobs w).files.entryAt? place = some (.file job.content) := by
  induction jobs generalizing w with
  | nil => cases saved
  | cons first jobs ih =>
    rcases first.cases w with ⟨e, failed⟩ | ⟨end_, w₁, lands⟩
    · rw [landings_cons_of_error failed] at saved
      cases saved
    · rw [lands.landings_cons] at saved distinct
      rw [lands.afterJobs_cons]
      obtain ⟨apart, later⟩ := List.nodup_cons.mp distinct
      rcases List.mem_cons.mp saved with own | rest
      · obtain ⟨rfl, rfl⟩ := Prod.mk.inj own
        refine (keptBut_afterJobs jobs w₁).entries place _ apart ?_
        rw [lands.entryAt?, if_pos rfl]
      · exact ih later rest

theorem paths_of_saveEach {jobs : List Job} {w : Workspace} {paths : List Path}
    (done : ((saveEach jobs).run w).1 = .ok paths) :
    (landings jobs w).length = jobs.length ∧ paths = jobs.map Job.target := by
  induction jobs generalizing w paths with
  | nil =>
    obtain rfl := Except.ok.inj done
    exact ⟨rfl, rfl⟩
  | cons job jobs ih =>
    rcases job.cases w with ⟨e, failed⟩ | ⟨place, w₁, lands⟩
    · rw [run_saveEach_cons_of_error failed] at done
      cases done
    · rw [lands.run_saveEach_cons] at done
      obtain ⟨later, rest, rfl⟩ := map_eq_ok.mp done
      obtain ⟨all, rfl⟩ := ih rest
      rw [lands.landings_cons, List.length_cons, all]
      exact ⟨rfl, rfl⟩

/-- Saving ends at the first job that fails, in the state that its failure leaves. -/
theorem failure_of_saveEach {jobs : List Job} {w : Workspace} {e : FileError}
    (failed : ((saveEach jobs).run w).1 = .error e) :
    ∃ before job after, jobs = before ++ job :: after ∧
      before.length = (landings jobs w).length ∧
      (save job.2 job.1).run (afterJobs before w) = (.error e, afterJobs jobs w) := by
  induction jobs generalizing w with
  | nil => cases failed
  | cons job jobs ih =>
    rcases job.cases w with ⟨e', first⟩ | ⟨place, w₁, lands⟩
    · have ended := run_saveEach_cons_of_error first jobs
      rw [ended] at failed
      obtain rfl := Except.error.inj failed
      refine ⟨[], job, jobs, rfl, ?_, ?_⟩
      · rw [landings_cons_of_error first]
        rfl
      · have after : afterJobs (job :: jobs) w = job.surroundings w := by rw [afterJobs, ended]
        rw [after]
        exact first
    · rw [lands.run_saveEach_cons] at failed
      cases rest : ((saveEach jobs).run w₁).1 with
      | ok paths =>
        rw [rest] at failed
        cases failed
      | error e' =>
        rw [rest] at failed
        obtain rfl := Except.error.inj failed
        obtain ⟨before, fails, after, rfl, length, failure⟩ := ih rest
        refine ⟨job :: before, fails, after, rfl, ?_, ?_⟩
        · rw [lands.landings_cons, List.length_cons, List.length_cons, length]
        · rw [lands.afterJobs_cons, lands.afterJobs_cons]
          exact failure

/-- Whatever steps are refused, the files before the first that fails hold their content, and all
else is as it was, the later targets with it, but for folders made around these files. No temporary
file is left. -/
theorem saveEach_all_or_nothing {jobs : List Job} {w : Workspace}
    (distinct : (landings jobs w).Nodup) :
    (∀ paths, ((saveEach jobs).run w).1 = .ok paths →
      (landings jobs w).length = jobs.length ∧ paths = jobs.map Job.target) ∧
    (∀ e, ((saveEach jobs).run w).1 = .error e →
      ∃ before job after, jobs = before ++ job :: after ∧
        before.length = (landings jobs w).length ∧
        (save job.2 job.1).run (afterJobs before w) = (.error e, afterJobs jobs w)) ∧
    (∀ job place, (job, place) ∈ jobs.zip (landings jobs w) →
      (afterJobs jobs w).files.entryAt? place = some (.file job.content)) ∧
    (∀ q, q ∉ landings jobs w →
      (afterJobs jobs w).files.entryAt? q = w.files.entryAt? q ∨
      w.files.entryAt? q = none ∧ (afterJobs jobs w).files.entryAt? q = some .folder ∧
        ∃ before job after, jobs = before ++ job :: after ∧
          before.length ≤ (landings jobs w).length ∧ job.Makes (afterJobs before w) q) ∧
    (afterJobs jobs w).current = w.current ∧ (afterJobs jobs w).environment = w.environment := by
  have kept := keptBut_afterJobs jobs w
  refine ⟨fun _ => paths_of_saveEach, fun _ => failure_of_saveEach,
    fun _ _ => content_afterJobs distinct, fun _ => entryAt?_afterJobs jobs w,
    kept.current, kept.environment⟩

/-- A folder with a file. -/
def oneFile : Workspace :=
  { files := ⟨[([['p']], .folder), ([['p'], ['b']], .file [0])]⟩
    current := [['p']] }

/-- Three files, of which the second cannot take its name. -/
def refusedSecond : List Job :=
  [(⟨"d/a".toList, "x".toList⟩, { tag := ['t'] }),
    (⟨"b".toList, "y".toList⟩, { tag := ['t'], moving := some ⟨.busy, [], none⟩ }),
    (⟨"c".toList, "z".toList⟩, { tag := ['t'] })]

/-- The first file is there, the second is what it was, and the third is not there. -/
theorem refusedSecond_saved : (landings refusedSecond oneFile).Nodup ∧
    (afterJobs refusedSecond oneFile).files.entryAt? [['p'], ['d'], ['a']] =
      some (.file (Utf8.encode ['x'])) ∧
    (afterJobs refusedSecond oneFile).files.entryAt? [['p'], ['b']] = some (.file [0]) ∧
    (afterJobs refusedSecond oneFile).files.entryAt? [['p'], ['c']] = none := by
  have places : landings refusedSecond oneFile = [[['p'], ['d'], ['a']]] := by decide +kernel
  have distinct : (landings refusedSecond oneFile).Nodup := by
    rw [places]
    decide
  obtain ⟨-, -, content, -⟩ := saveEach_all_or_nothing distinct
  rw [places] at content
  exact ⟨distinct, content (refusedSecond[0]) [['p'], ['d'], ['a']] List.mem_cons_self,
    by decide +kernel, by decide +kernel⟩

/-- A file whose temporary name is too long, and one named like the folder around it. -/
def tooLong : List Job :=
  [(⟨"a/".toList ++ List.replicate 250 'n', "x".toList⟩, { tag := ['t'] }),
    (⟨"a".toList, "y".toList⟩, { tag := ['t'] })]

/-- Where saving fails at the first file, the second file's path may lead to a folder that led
nowhere before. -/
theorem folder_where_later_target_was_missing :
    ((saveEach tooLong).run oneFile).1.toOption = none ∧ landings tooLong oneFile = [] ∧
    oneFile.locate ⟨.relative, [['a']]⟩ false = .ok ⟨[['p'], ['a']], none⟩ ∧
    (tooLong.map Job.target)[1]? = some ⟨.relative, [['a']]⟩ ∧
    (afterJobs tooLong oneFile).locate ⟨.relative, [['a']]⟩ false =
      .ok ⟨[['p'], ['a']], some .folder⟩ := by
  decide +kernel

end TestSkeleton.Change
