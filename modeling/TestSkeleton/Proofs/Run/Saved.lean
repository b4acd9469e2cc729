import TestSkeleton.Proofs.Discovery.Saved
import TestSkeleton.Run

/-! A run after test files were saved: every stage gives what it gave before. -/

namespace TestSkeleton

open Text Workspace

namespace Workspace

theorem exists_of_readText {w : Workspace} {p : Path} {text : Text} (read : w.readText p = .ok text) :
    ∃ content, w.entry p = .ok (.file content) := by
  obtain ⟨content, bytes, -⟩ := bind_eq_ok.mp read
  rw [mapError_eq_ok, readBytes] at bytes
  split at bytes
  · exact ⟨_, ‹_›⟩
  · cases bytes
  · cases bytes

theorem isFile_eq_false_of_notFound {w : Workspace} {p : Path} (missing : w.entry p = .error .notFound) :
    w.isFile p = .ok false ∧ w.isPresent p = .ok false := by
  rw [isFile, isPresent, entryAt?, missing]
  exact ⟨rfl, rfl⟩

theorem isFile_eq_false_of_folder {w : Workspace} {p : Path} (folder : w.entry p = .ok .folder) :
    w.isFile p = .ok false ∧ w.isPresent p = .ok true := by
  rw [isFile, isPresent, entryAt?, folder]
  exact ⟨rfl, rfl⟩

end Workspace

namespace IgnoreSource

/-- The home folder, as the user's ignore file is looked for. -/
def homeOf (w : Workspace) : Except Failure Path :=
  match w.filledVariable? homeName with
  | some home => .ok (Path.read home)
  | none => w.home

/-- Where the user's ignore file is, if it is there. -/
def namedFile (w : Workspace) (home : Path) : Path :=
  match configured? w home with
  | some name => Path.read (w.expandTilde name)
  | none =>
    let base := match w.filledVariable? "XDG_CONFIG_HOME".toList with
      | some base => Path.read base
      | none => home.child ".config".toList
    base.child "git/ignore".toList

/-- The named file, if it is there or the user's settings ask for it. -/
def lookFor (w : Workspace) (home : Path) : Except Failure (Option Path) :=
  if (configured? w home).isSome then .ok (some (namedFile w home))
  else (fun found => if found then some (namedFile w home) else none) <$>
    (w.isFile (namedFile w home)).mapError .file

theorem userFile?_eq (w : Workspace) : userFile? w = homeOf w >>= lookFor w := by
  have rest : ∀ home : Path, (match configured? w home with
      | some name => (pure (some (Path.read (w.expandTilde name))) : Except Failure (Option Path))
      | none => do
        let base := match w.filledVariable? "XDG_CONFIG_HOME".toList with
          | some base => Path.read base
          | none => home.child ".config".toList
        let usual := base.child "git/ignore".toList
        return if ← (w.isFile usual).mapError .file then some usual else none) = lookFor w home := by
    intro home
    rw [lookFor, namedFile]
    cases configured? w home with
    | some name => rfl
    | none => cases (w.filledVariable? "XDG_CONFIG_HOME".toList) <;> rfl
  rw [userFile?, homeOf]
  cases w.filledVariable? homeName with
  | some home => exact rest (Path.read home)
  | none => exact bind_congr rest

theorem eq_namedFile {w : Workspace} {home p : Path} (looked : lookFor w home = .ok (some p)) :
    p = namedFile w home := by
  rw [lookFor] at looked
  split at looked
  · cases looked
    rfl
  · obtain ⟨found, -, same⟩ := map_eq_ok.mp looked
    split at same
    · exact (Option.some.inj same).symm
    · cases same

/-- On the way to the user's ignore file there is neither a folder that is made for files in a folder,
nor one of these files. -/
def StandsApart (w : Workspace) (folder : Place) (names : List Text) : Prop :=
  ∀ home, homeOf w = .ok home → w.StepsClear folder home ∧
    ∀ q ∈ w.way (namedFile w home), ¬w.IsMadeFor folder q ∧ ∀ n ∈ names, q ≠ folder ++ [n]

end IgnoreSource

theorem Target.ofProject_eq_ok {w : Workspace} {language : Text} {root : Path} {policy : Policy}
    {t : Target} (made : Target.ofProject w language root policy = .ok t) :
    t.root = root ∧ t.policy = policy := by
  rw [ofProject] at made
  cases known : Language.ofName? language with
  | none =>
    rw [known] at made
    obtain ⟨dialect, failed, -⟩ := bind_eq_ok.mp made
    cases failed
  | some l =>
    cases l with
    | rust =>
      simp only [known] at made
      obtain ⟨crate, -, whole⟩ := bind_eq_ok.mp made
      rw [← pure_eq_ok.mp whole]
      exact ⟨rfl, rfl⟩
    | v =>
      simp only [known] at made
      rw [← pure_eq_ok.mp made]
      exact ⟨rfl, rfl⟩

/-- An analysis that succeeds scanned a folder, and read the sources that it found there. -/
theorem Analysis.analyze_eq_ok {w : Workspace} {policy : Policy} {start root : Path} {a : Analysis}
    (whole : w.expandHome start >>= w.resolve = .ok root) (analyzed : analyze w policy start = .ok a) :
    w.isFolder root = .ok true ∧ ∃ l : Language,
      Discovery.scan w policy root [l.fileSuffix] = .ok a.discovery ∧
      a.outcomes = (a.discovery.files.filter fun p => l.acceptsName p.name).map
        (readSource w policy l) := by
  obtain ⟨p, expanded, resolved⟩ := bind_eq_ok.mp whole
  rw [analyze, expanded, ok_bind, resolved, ok_bind] at analyzed
  obtain ⟨isFolder, folder, analyzed⟩ := bind_eq_ok.mp analyzed
  cases isFolder with
  | false =>
    rw [Bool.not_false, if_pos rfl] at analyzed
    cases analyzed
  | true =>
    rw [Bool.not_true, if_neg (by simp)] at analyzed
    obtain ⟨detection, -, analyzed⟩ := bind_eq_ok.mp analyzed
    obtain ⟨⟨name, searches⟩, -, analyzed⟩ := bind_eq_ok.mp analyzed
    obtain ⟨l, -, analyzed⟩ := bind_eq_ok.mp analyzed
    obtain ⟨discovery, scanned, analyzed⟩ := bind_eq_ok.mp analyzed
    rw [← pure_eq_ok.mp analyzed]
    exact ⟨mapError_eq_ok.mp folder, l, scanned, rfl⟩

theorem Discovery.scan_root {w : Workspace} {policy : Policy} {start root : Path} {suffixes : List Text}
    {d : Discovery} (rooted : rootOf w start = .ok root)
    (found : scan w policy start suffixes = .ok d) : d.root = root := by
  rw [scan_eq_rootOf, rooted, ok_bind] at found
  obtain ⟨⟨rules, warnings⟩, -, whole⟩ := bind_eq_ok.mp found
  rw [← pure_eq_ok.mp whole]

/-- The root of the project is the first of the folders around a path that could be. -/
theorem mem_of_firstMarked? {w : Workspace} {folders : List Path} {root : Path}
    (found : firstMarked? w folders = .ok (some root)) : root ∈ folders := by
  induction folders with
  | nil => cases found
  | cons folder rest ih =>
    rw [firstMarked?] at found
    obtain ⟨held, -, found⟩ := bind_eq_ok.mp found
    cases held with
    | true =>
      rw [if_pos rfl, pure_eq_ok, Option.some.injEq] at found
      rw [found]
      exact List.mem_cons_self
    | false =>
      rw [if_neg (by simp)] at found
      exact List.mem_cons_of_mem _ (ih found)

theorem selfAndParents_eq (p : Path) : ∃ outer, p.selfAndParents = p :: outer ∧ p ∉ outer := by
  refine ⟨(List.range p.parts.length).map fun k =>
    ⟨p.root, p.parts.take (p.parts.length - (k + 1))⟩, ?_, ?_⟩
  · rw [Path.selfAndParents, List.range_succ_eq_map, List.map_cons, List.map_map, Nat.sub_zero,
      List.take_length]
    rfl
  · intro member
    obtain ⟨k, inside, same⟩ := List.mem_map.mp member
    have lengths := congrArg (fun q : Path => q.parts.length) same
    have few := List.mem_range.mp inside
    simp only [List.length_take] at lengths
    omega

namespace OutputSaved

variable {w w' : Workspace} {policy : Policy} {root out : Place} {names : List Text}
  (s : OutputSaved w w' policy root out names)

include s

/-- A name in the root is found as before, unless it is a new folder. -/
theorem entry_marker {name : Text} (isName : Path.IsName name) :
    w'.entry ((⟨.slash, root⟩ : Path).child name) = w.entry ((⟨.slash, root⟩ : Path).child name) ∨
      w.entry ((⟨.slash, root⟩ : Path).child name) = .error .notFound ∧
        w'.entry ((⟨.slash, root⟩ : Path).child name) = .ok .folder := by
  have steps : ∀ n ∈ root ++ [name], FileTree.IsStep n :=
    s.isStep fun n member => by rwa [List.mem_singleton.mp member]
  rw [isName.child]
  by_cases new : w.files.entryAt? (root ++ [name]) = none ∧ [name] <+: out
  · obtain ⟨absent, way⟩ := new
    refine .inr ⟨entry_eq_notFound s.linkless steps (s.within way) (fun front around => ?_) absent, ?_⟩
    · rcases List.prefix_concat_iff.mp around with rfl | above
      · exact .inr absent
      · rw [← s.grown.same_around s.wellFormed s.rooted above]
        exact .inl (s.grown.folders front (above.trans (List.prefix_append root out)))
    · rw [entry_eq_ok_iff, ← isFolder_eq_true, isFolder_place s.grown.linkless steps]
      exact ⟨s.within way, fun front around =>
        s.grown.folders front (around.trans ((List.prefix_append_right_inj root).mpr way))⟩
  · have kept : w'.files.entryAt? (root ++ ([] ++ [name])) = w.files.entryAt? (root ++ ([] ++ [name])) :=
      s.unchanged s.filled.symm fun absent way => new ⟨absent, way⟩
    rw [List.nil_append] at kept
    exact .inl (s.grown.entry_child s.linkless s.wellFormed steps s.rooted kept)

theorem isFile_marker {name : Text} (isName : Path.IsName name) :
    w'.isFile ((⟨.slash, root⟩ : Path).child name) = w.isFile ((⟨.slash, root⟩ : Path).child name) := by
  rcases s.entry_marker isName with same | ⟨missing, folder⟩
  · exact isFile_congr same
  · rw [(isFile_eq_false_of_folder folder).1, (isFile_eq_false_of_notFound missing).1]

theorem isPresent_marker {name : Text} (isName : Path.IsName name) {b : Bool}
    (known : w.isPresent ((⟨.slash, root⟩ : Path).child name) = .ok b) :
    ∃ b', w'.isPresent ((⟨.slash, root⟩ : Path).child name) = .ok b' ∧ (b = true → b' = true) := by
  rcases s.entry_marker isName with same | ⟨missing, folder⟩
  · exact ⟨b, by rw [isPresent_congr same, known], id⟩
  · exact ⟨true, (isFile_eq_false_of_folder folder).2, fun _ => rfl⟩

theorem detect_eq (user : UserKept w w' policy) :
    Detection.detect w' policy ⟨.slash, root⟩ = Detection.detect w policy ⟨.slash, root⟩ := by
  have manifests : ∀ languages, Detection.byManifest? w' ⟨.slash, root⟩ languages =
      Detection.byManifest? w ⟨.slash, root⟩ languages := by
    intro languages
    have isName : ∀ l : Language, Path.IsName l.manifest := by
      intro l
      cases l <;> decide
    induction languages with
    | nil => rfl
    | cons l rest ih => rw [Detection.byManifest?, Detection.byManifest?, s.isFile_marker (isName l), ih]
  rw [Detection.detect, Detection.detect]
  simp only [manifests, s.scan_eq user]

theorem ofManifest_eq :
    Crate.ofManifest w' ((⟨.slash, root⟩ : Path).child "Cargo.toml".toList) =
      Crate.ofManifest w ((⟨.slash, root⟩ : Path).child "Cargo.toml".toList) := by
  rcases s.entry_marker (show Path.IsName "Cargo.toml".toList by decide) with same | ⟨missing, folder⟩
  · rw [Crate.ofManifest, Crate.ofManifest, isFile_congr same, readText_congr same]
  · rw [Crate.ofManifest, Crate.ofManifest, (isFile_eq_false_of_folder folder).1,
      (isFile_eq_false_of_notFound missing).1, ok_bind, ok_bind, if_pos (by rfl), if_pos (by rfl)]

theorem crate_eq : Crate.detect w' ⟨.slash, root⟩ policy = Crate.detect w ⟨.slash, root⟩ policy := by
  rw [Crate.detect, Crate.detect]
  simp only [s.ofManifest_eq, s.grown.resolve_eq s.linkless]

theorem ofProject_eq (language : Text) :
    Target.ofProject w' language ⟨.slash, root⟩ policy =
      Target.ofProject w language ⟨.slash, root⟩ policy := by
  rw [Target.ofProject, Target.ofProject]
  simp only [s.crate_eq]

omit s in
theorem readSource_congr {p : Path} (same : w'.entry p = w.entry p) (l : Language) :
    Analysis.readSource w' policy l p = Analysis.readSource w policy l p := by
  rw [Analysis.readSource, Analysis.readSource, readText_congr same]

/-- The sources of a project are read as before. -/
theorem sources_eq {suffixes : List Text} {d : Discovery}
    (found : Discovery.scan w policy ⟨.slash, root⟩ suffixes = .ok d) (l : Language) :
    (d.files.filter fun p => l.acceptsName p.name).map (Analysis.readSource w' policy l) =
      (d.files.filter fun p => l.acceptsName p.name).map (Analysis.readSource w policy l) :=
  List.map_congr_left fun p listed =>
    readSource_congr (s.entry_of_found found p (List.mem_filter.mp listed).1) l

/-- The analysis from the root gives what it gave. -/
theorem analyze_eq (user : UserKept w w' policy) :
    Analysis.analyze w' policy ⟨.slash, root⟩ = Analysis.analyze w policy ⟨.slash, root⟩ := by
  have expand : ∀ v : Workspace, v.expandHome ⟨.slash, root⟩ = .ok ⟨.slash, root⟩ := fun _ => rfl
  have unasked : (none : Option Text).filter (· ≠ []) = none := rfl
  simp only [Analysis.analyze, expand, ok_bind, s.grown.resolve_eq s.linkless,
    resolve_place s.linkless s.rootName, isFolder_congr s.entry_root, s.detect_eq user, s.scan_eq user,
    unasked]
  refine bind_congr fun isFolder => ?_
  cases isFolder with
  | false => rw [Bool.not_false, if_pos rfl, if_pos rfl, throw_bind, throw_bind]
  | true =>
    rw [Bool.not_true, if_neg (by simp), if_neg (by simp)]
    refine bind_congr fun detection => ?_
    refine bind_congr fun named => ?_
    refine bind_congr fun l => ?_
    refine bind_congr_ok fun discovery found => ?_
    rw [s.sources_eq found]

/-- A path that does not end as test files do finds what it found, or a file neither before nor
now. -/
theorem entry_or_unread {p : Path} (clear : w.StepsClear (root ++ out) p) {name : Text}
    (last : p.parts.getLast? = some name) (other : ∀ n ∈ names, name ≠ n) :
    w'.entry p = w.entry p ∨
      ∀ content, w'.entry p ≠ .ok (.file content) ∧ w.entry p ≠ .ok (.file content) := by
  have there : w.files.entryAt? (w.base p) = some .folder := by
    rw [base]
    split
    · rfl
    · exact s.current
  have beside : ∀ n ∈ names, p.parts.getLast? ≠ some n := fun n member ends =>
    other n member (Option.some.inj (last.symm.trans ends))
  have alike : ∀ {content}, w'.entry p = .ok (.file content) ↔ w.entry p = .ok (.file content) :=
    s.grown.entry_eq_file_iff s.linkless s.wellFormed there clear beside
  by_cases file : ∃ content, w.entry p = .ok (.file content)
  · obtain ⟨content, found⟩ := file
    exact .inl (by rw [found, alike.mpr found])
  · exact .inr fun content => ⟨fun found => file ⟨content, alike.mp found⟩, fun found => file ⟨content, found⟩⟩

omit s in
theorem templateName_plain (d : Dialect) : Path.IsName d.templateName ∧
    d.templateName.getLast? ≠ some 's' ∧ d.templateName.getLast? ≠ some 'v' := by
  have names : ∀ name ∈ ["rust_tests.rs.j2", "v_test.v.j2"].map String.toList,
      Path.IsName name ∧ name.getLast? ≠ some 's' ∧ name.getLast? ≠ some 'v' := by decide +kernel
  cases d with
  | rust crate => exact names _ List.mem_cons_self
  | v => exact names _ (List.mem_cons_of_mem _ List.mem_cons_self)

/-- The project's own template is the one that it was. -/
theorem template?_eq {t : Target} (target : t.root = ⟨.slash, root⟩)
    (templates : ∀ folder, t.policy.templatesDir = some folder →
      w.StepsClear (root ++ out) ((⟨.slash, root⟩ : Path).append (Path.read folder))) :
    t.template? w' = t.template? w := by
  obtain ⟨isName, rust, v⟩ := templateName_plain t.dialect
  rw [Target.template?, Target.template?]
  cases given : t.policy.templatesDir.filter (· ≠ []) with
  | none => rfl
  | some folder =>
    have clear := templates folder (Option.filter_eq_some_iff.mp given).1
    rw [target]
    dsimp only
    have named := isName.child ((⟨.slash, root⟩ : Path).append (Path.read folder))
    rcases s.entry_or_unread (clear.child isName) (named ▸ List.getLast?_concat)
      fun n member => (s.tests n member).ne rust v with same | unread
    · rw [isFile_congr same, readText_congr same]
    · have noFile : ∀ {v : Workspace} {p : Path}, (∀ content, v.entry p ≠ .ok (.file content)) →
          v.isFile p ≠ .ok true := fun none isFile =>
        (isFile_eq_true.mp isFile).elim fun content found => none content found
      have before := noFile fun content => (unread content).2
      have after := noFile fun content => (unread content).1
      split
      · exact absurd ‹_› after
      · rfl

theorem configured?_eq {home : Path} (clear : w.StepsClear (root ++ out) home) :
    IgnoreSource.configured? w' home = IgnoreSource.configured? w home := by
  have isName : Path.IsName ".gitconfig".toList ∧ ".gitconfig".toList.getLast? ≠ some 's' ∧
      ".gitconfig".toList.getLast? ≠ some 'v' := by decide +kernel
  obtain ⟨isName, rust, v⟩ := isName
  rw [IgnoreSource.configured?, IgnoreSource.configured?]
  rcases s.entry_or_unread (clear.child isName) (isName.child home ▸ List.getLast?_concat)
    fun n member => (s.tests n member).ne rust v with same | unread
  · rw [readText_congr same]
  · have noText : ∀ {v : Workspace} {p : Path}, (∀ content, v.entry p ≠ .ok (.file content)) →
        ∀ text, v.readText p ≠ .ok text := fun none text read =>
      (exists_of_readText read).elim fun content found => none content found
    have before := noText fun content => (unread content).2
    have after := noText fun content => (unread content).1
    split
    · exact absurd ‹_› (after _)
    · split
      · exact absurd ‹_› (before _)
      · rfl

theorem userKept
    (user : policy.respectGitignore = true → IgnoreSource.StandsApart w (root ++ out) names) :
    UserKept w w' policy := by
  intro respected
  have given : ∀ name, w'.givenVariable? name = w.givenVariable? name := fun name => by
    rw [givenVariable?, givenVariable?, s.grown.environment]
  have filled : ∀ name, w'.filledVariable? name = w.filledVariable? name := fun name => by
    rw [filledVariable?, filledVariable?, given]
  have tilde : ∀ t, w'.expandTilde t = w.expandTilde t := fun t => by
    simp only [expandTilde, given]
  have home : w'.home = w.home := by
    simp only [Workspace.home, expandHome, tilde]
  have homes : IgnoreSource.homeOf w' = IgnoreSource.homeOf w := by
    rw [IgnoreSource.homeOf, IgnoreSource.homeOf, filled, home]
  have kept : ∀ home, IgnoreSource.homeOf w = .ok home →
      w'.entry (IgnoreSource.namedFile w home) = w.entry (IgnoreSource.namedFile w home) := by
    intro home known
    obtain ⟨-, apart⟩ := user respected home known
    refine s.grown.entry_congr s.linkless fun q passed => ?_
    obtain ⟨made, other⟩ := apart q passed
    by_cases there : w.files.entryAt? q = none
    · exact s.grown.apart q (fun inside => made ⟨inside, there⟩) other
    · exact s.grown.same there other
  rw [IgnoreSource.userFile?_eq, IgnoreSource.userFile?_eq, homes]
  constructor
  · refine bind_congr_ok fun home known => ?_
    have clear := (user respected home known).1
    have named : IgnoreSource.namedFile w' home = IgnoreSource.namedFile w home := by
      simp only [IgnoreSource.namedFile, s.configured?_eq clear, tilde, filled]
    rw [IgnoreSource.lookFor, IgnoreSource.lookFor, s.configured?_eq clear, named,
      isFile_congr (kept home known)]
  · intro p found
    obtain ⟨home, known, looked⟩ := bind_eq_ok.mp found
    rw [IgnoreSource.eq_namedFile looked, kept home known]

theorem buildCase_eq (t : Target) : t.buildCase w' = t.buildCase w := by
  funext f
  have relative : ∀ base p, w'.relativeText base p = w.relativeText base p := fun base p => by
    simp only [relativeText, s.grown.resolve_eq s.linkless]
  simp only [Target.buildCase, Target.moduleOf, relative]

/-- The test files of functions are written as before. -/
theorem ofFunctions_eq {t : Target} (target : t.root = ⟨.slash, root⟩)
    (templates : ∀ folder, t.policy.templatesDir = some folder →
      w.StepsClear (root ++ out) ((⟨.slash, root⟩ : Path).append (Path.read folder)))
    (functions : List Function) :
    GenerationRun.ofFunctions w' t functions = GenerationRun.ofFunctions w t functions := by
  have attempts : GenerationRun.attempt w' t = GenerationRun.attempt w t := by
    funext fs
    rw [GenerationRun.attempt, GenerationRun.attempt, s.buildCase_eq]
  have renders : ∀ path cases, t.render w' path cases = t.render w path cases := fun path cases => by
    rw [Target.render, Target.render, s.template?_eq target templates]
  have all : ∀ groups, GenerationRun.renderAll w' t groups = GenerationRun.renderAll w t groups := by
    intro groups
    induction groups with
    | nil => rfl
    | cons entry groups ih =>
      obtain ⟨path, cases⟩ := entry
      simp only [GenerationRun.renderAll, renders, ih]
  simp only [GenerationRun.ofFunctions, attempts, all]

theorem holdsAny_of_before {markers : List Text} (isName : ∀ name ∈ markers, Path.IsName name)
    (held : holdsAny w ⟨.slash, root⟩ markers = .ok true) :
    holdsAny w' ⟨.slash, root⟩ markers = .ok true := by
  induction markers with
  | nil => cases held
  | cons name rest ih =>
    rw [holdsAny] at held ⊢
    obtain ⟨b, known, held⟩ := bind_eq_ok.mp held
    obtain ⟨b', known', kept⟩ := s.isPresent_marker (isName name List.mem_cons_self) known
    rw [known', ok_bind]
    cases b' with
    | true => rw [if_pos rfl, pure_eq_ok]
    | false =>
      cases b with
      | true => exact absurd (kept rfl) (by simp)
      | false =>
        rw [if_neg (by simp)] at held ⊢
        exact ih (fun n member => isName n (List.mem_cons_of_mem _ member)) held

/-- A run from the root of a project finds that root again. -/
theorem findProjectRoot_eq {start : Path}
    (whole : w.expandHome start >>= w.resolve = .ok ⟨.slash, root⟩)
    (found : findProjectRoot w start = .ok ⟨.slash, root⟩) :
    findProjectRoot w' start = .ok ⟨.slash, root⟩ := by
  have expand : w'.expandHome start = w.expandHome start := by
    simp only [expandHome, expandTilde, givenVariable?, s.grown.environment]
  obtain ⟨p, expanded, resolved⟩ := bind_eq_ok.mp whole
  rw [findProjectRoot, expanded, ok_bind] at found
  rw [findProjectRoot, expand, expanded, ok_bind]
  obtain ⟨q?, existing, found⟩ := bind_eq_ok.mp found
  cases q? with
  | none => cases found
  | some q =>
    obtain rfl := Except.ok.inj ((resolve_of_existing s.linkless existing).symm.trans resolved)
    have here : w.isFile ⟨.slash, root⟩ = .ok false := (isFile_eq_false_of_folder s.entry_root_folder).1
    have here' : w'.isFile ⟨.slash, root⟩ = .ok false := by rw [isFile_congr s.entry_root, here]
    obtain ⟨outer, around, apart⟩ := selfAndParents_eq ⟨.slash, root⟩
    rw [s.grown.resolveExisting?_eq s.linkless existing, ok_bind]
    dsimp only at found ⊢
    rw [here, mapError_ok, ok_bind] at found
    rw [here', mapError_ok, ok_bind]
    rw [if_neg (by simp), around, firstMarked?] at found
    rw [if_neg (by simp), around, firstMarked?]
    obtain ⟨marked?, marked, found⟩ := bind_eq_ok.mp found
    cases marked? with
    | none => cases found
    | some r =>
      obtain rfl := pure_eq_ok.mp found
      obtain ⟨held, holds, marked⟩ := bind_eq_ok.mp (mapError_eq_ok.mp marked)
      cases held with
      | false =>
        rw [if_neg (by simp)] at marked
        exact absurd (mem_of_firstMarked? marked) apart
      | true =>
        have isName : ∀ name ∈ projectMarkers, Path.IsName name := by decide
        rw [s.holdsAny_of_before isName holds, ok_bind, if_pos rfl]
        rfl

/-- A run from the root of a project makes what it made. -/
theorem prepare_eq {start : Path} (whole : w.expandHome start >>= w.resolve = .ok ⟨.slash, root⟩)
    (found : findProjectRoot w start = .ok ⟨.slash, root⟩)
    (user : policy.respectGitignore = true → IgnoreSource.StandsApart w (root ++ out) names)
    (templates : ∀ folder, policy.templatesDir = some folder →
      w.StepsClear (root ++ out) ((⟨.slash, root⟩ : Path).append (Path.read folder))) :
    Run.prepare w' start (some policy) = Run.prepare w start (some policy) := by
  rw [Run.prepare, Run.prepare, s.findProjectRoot_eq whole found, found, ok_bind, ok_bind]
  dsimp only
  rw [pure_bind, pure_bind, s.analyze_eq (s.userKept user)]
  refine bind_congr_ok fun analysis analyzed => ?_
  have resolved : w.expandHome ⟨.slash, root⟩ >>= w.resolve = .ok ⟨.slash, root⟩ :=
    resolve_place s.linkless s.rootName
  obtain ⟨-, l, scanned, -⟩ := Analysis.analyze_eq_ok resolved analyzed
  have rooted := Discovery.scan_root s.rootOf_before scanned
  rw [rooted, s.ofProject_eq]
  refine bind_congr_ok fun t made => ?_
  obtain ⟨target, given⟩ := Target.ofProject_eq_ok made
  rw [s.ofFunctions_eq target (given ▸ templates)]

end OutputSaved

end TestSkeleton
