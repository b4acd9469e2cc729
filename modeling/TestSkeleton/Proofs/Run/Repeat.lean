import TestSkeleton.Proofs.Generation.Accounting
import TestSkeleton.Proofs.Run.Saved
import TestSkeleton.Proofs.Rust.ScopeName
import TestSkeleton.Proofs.Workspace.Save

/-! A run that saves its test files, and the run after it: the second finds all as the first did, and
changes nothing. -/

namespace TestSkeleton

open Text Workspace

section Sources

variable {policy : Policy} {file source : Text} {functions : List Function}

theorem V.scope_extract (extracted : V.extract policy file source = .ok functions) :
    ∀ f ∈ functions, f.scope = [] := by
  rw [V.extract] at extracted
  dsimp only at extracted
  split at extracted
  · cases extracted
  · cases extracted
    intro f member
    obtain ⟨⟨h, rest⟩, -, found⟩ := List.mem_filterMap.mp member
    dsimp only at found
    split at found
    · obtain ⟨-, -, rfl⟩ := Option.map_eq_some_iff.mp found
      rfl
    · cases found

theorem Language.plain_scope_extract {l : Language}
    (extracted : l.extract policy file source = .ok functions) :
    ∀ f ∈ functions, ∀ name ∈ f.scope, '/' ∉ name := by
  cases l with
  | rust => exact Rust.plain_scope_extract extracted
  | v =>
    intro f member name inside
    rw [V.scope_extract extracted f member] at inside
    exact absurd inside List.not_mem_nil

end Sources

/-- The modules around the functions of a project have names without a slash. -/
theorem Analysis.plain_scope {w : Workspace} {policy : Policy} {start root : Path} {a : Analysis}
    (whole : w.expandHome start >>= w.resolve = .ok root) (analyzed : analyze w policy start = .ok a) :
    ∀ f ∈ a.functions, ∀ name ∈ f.scope, '/' ∉ name := by
  obtain ⟨-, l, -, outcomes⟩ := analyze_eq_ok whole analyzed
  intro f member
  rw [functions, outcomes] at member
  obtain ⟨outcome, listed, inside⟩ := List.mem_flatMap.mp member
  obtain ⟨p, -, rfl⟩ := List.mem_map.mp listed
  rw [SourceOutcome.functions, readSource] at inside
  dsimp only at inside
  split at inside
  · rename_i functions result
    split at result
    · exact Language.plain_scope_extract result f inside
    · cases result
  · exact absurd inside List.not_mem_nil

namespace Target

/-- The folder for test files. -/
def outputFolder (t : Target) : Path := t.root.append (Path.read t.policy.outputDir)

theorem outputPath_eq (t : Target) {module : ModulePath} (plain : module.Plain) :
    t.outputPath module = ⟨t.outputFolder.root,
      t.outputFolder.parts ++ [ModulePath.testFileName t.dialect.language module]⟩ := by
  rw [outputPath_eq_child, (plain.isName_testFileName _).child]
  rfl

theorem outputFolder_eq {t : Target} {root out : Place} (target : t.root = ⟨.slash, root⟩)
    (output : Path.read t.policy.outputDir = ⟨.relative, out⟩) :
    t.outputFolder = ⟨.slash, root ++ out⟩ := by
  rw [outputFolder, target, output]
  rfl

end Target

namespace GenerationRun

variable {w : Workspace} {t : Target} {functions : List Function} {generation : Generation}
  {root out : Place}

/-- The test files of a project lie side by side in the folder for them. -/
theorem exists_name_of_mem_files (scopes : ∀ f ∈ functions, ∀ name ∈ f.scope, '/' ∉ name)
    (finished : (ofFunctions w t functions).result = .ok generation) :
    ∀ file ∈ generation.files, ∃ name, Path.IsName name ∧ ModulePath.IsTestName name ∧
      file.path = Path.text ⟨t.outputFolder.root, t.outputFolder.parts ++ [name]⟩ := by
  intro file member
  have listed := List.mem_map_of_mem (f := fun file => file.path) member
  rw [files_paths finished, List.mem_eraseDups, ← List.map_filterMap, ← cases_eq] at listed
  obtain ⟨c, found, path⟩ := List.mem_map.mp listed
  obtain ⟨f, inside, made⟩ := exists_function_of_mem_cases found
  obtain ⟨module, written⟩ := Target.buildCase_module made
  have plain := Target.plain_moduleOf module (scopes f inside)
  refine ⟨_, plain.isName_testFileName t.dialect.language, ⟨_, _, ModulePath.testFileName_eq _ _⟩, ?_⟩
  rw [← path, written, t.outputPath_eq plain]

/-- The test files of a project can be saved together. -/
theorem together_files (valid : ∀ name ∈ root ++ out, Path.IsName name)
    (target : t.root = ⟨.slash, root⟩) (output : Path.read t.policy.outputDir = ⟨.relative, out⟩)
    (scopes : ∀ f ∈ functions, ∀ name ∈ f.scope, '/' ∉ name)
    (finished : (ofFunctions w t functions).result = .ok generation) :
    Change.Together (root ++ out) generation.files ∧
      ∀ file ∈ generation.files, ModulePath.IsTestName (Change.fileName file) := by
  have read : ∀ {name}, Path.IsName name → Path.read (Path.text ⟨.slash, root ++ out ++ [name]⟩) =
      ⟨.slash, root ++ out ++ [name]⟩ := by
    intro name isName
    refine Path.read_text fun n member => ?_
    have whole : Path.IsName n := by
      rcases List.mem_append.mp member with above | last
      · exact valid n above
      · rwa [List.mem_singleton.mp last]
    exact ⟨whole.1, whole.2.1, whole.2.2.2⟩
  have placed : ∀ file ∈ generation.files, Path.IsName (Change.fileName file) ∧
      ModulePath.IsTestName (Change.fileName file) ∧
      file.path = Path.text ⟨.slash, root ++ out ++ [Change.fileName file]⟩ := by
    intro file member
    obtain ⟨name, isName, test, path⟩ := exists_name_of_mem_files scopes finished file member
    rw [Target.outputFolder_eq target output] at path
    have named : Change.fileName file = name := by
      rw [Change.fileName, path, read isName, Path.name, List.getLast?_concat]
      rfl
    rw [named]
    exact ⟨isName, test, path⟩
  refine ⟨⟨?_, ?_, ?_, ?_⟩, fun file member => (placed file member).2.1⟩
  · intro file member
    obtain ⟨isName, -, path⟩ := placed file member
    rw [← read isName, ← path]
  · exact fun file member => (placed file member).1
  · have distinct := nodup_files_paths finished
    have paths : generation.files.map (·.path) = (generation.files.map Change.fileName).map
        fun name => Path.text ⟨.slash, root ++ out ++ [name]⟩ := by
      rw [List.map_map]
      exact List.map_congr_left fun file member => (placed file member).2.2
    rw [paths] at distinct
    exact distinct.of_map _
  · intro file member tag name same
    have ends : (Change.temporaryName tag name).getLast? = some 'p' := by
      rw [Change.temporaryName, List.getLast?_append]
      have last : ".tmp".toList.getLast? = some 'p' := by decide +kernel
      rw [last, Option.some_or]
    refine (placed file member).2.1.ne ?_ ?_ same.symm <;> rw [ends] <;> simp

end GenerationRun

namespace Task

variable {α : Type}

theorem run_ofExcept (result : Except Failure α) (w : Workspace) :
    (ofExcept result).run w = (result, w) := by
  cases result <;> rfl

theorem run_look (f : Workspace → Except Failure α) (w : Workspace) : (look f).run w = (f w, w) := by
  rw [look, run_bind, run_get]
  exact run_ofExcept (f w) w

/-- A step that only looks fails with the workspace as it is, or goes on from it. -/
theorem run_look_bind {β : Type} {f : Workspace → Except Failure α} {next : α → Task β}
    {w w' : Workspace} {result : Except Failure β} (done : (look f >>= next).run w = (result, w')) :
    (∃ e, result = .error e ∧ w' = w) ∨ ∃ a, f w = .ok a ∧ (next a).run w = (result, w') := by
  rw [run_bind, run_look] at done
  cases seen : f w with
  | error e =>
    rw [seen] at done
    cases done
    exact .inl ⟨e, rfl, rfl⟩
  | ok a =>
    rw [seen] at done
    exact .inr ⟨a, rfl, done⟩

theorem run_change_eq_ok {c : Change α} {w w' : Workspace} {a : α} :
    (change c).run w = (.ok a, w') ↔ c.run w = (.ok a, w') := by
  rw [change, run_bind, run_get]
  dsimp only
  rcases c.run w with ⟨result, w₁⟩
  have step : (do
      set w₁
      ofExcept (result.mapError .file) : Task α).run w = (result.mapError .file, w₁) :=
    run_ofExcept _ w₁
  rw [step, Prod.mk.injEq, Prod.mk.injEq, mapError_eq_ok]

end Task

/-- A run that saves its files ends well when all that it makes can be made and saved. -/
theorem run_generateTests_eq_ok {tag : Text} {start : Path} {policy : Option Policy}
    {w w' : Workspace} {g : Generation} :
    (generateTests tag start policy true).run w = (.ok g, w') ↔
      ∃ r paths, Run.prepare w start policy = .ok r ∧ r.result = .ok g ∧
        (Change.saveAll tag g.files).run w = (.ok paths, w') := by
  simp only [generateTests, run_bind_eq_ok, Task.run_look, Run.finish, if_true, Task.run_ofExcept,
    Task.run_change_eq_ok]
  constructor
  · rintro ⟨r, _, prepared, g', _, made, paths, _, saved, ended⟩
    obtain ⟨whole, rfl⟩ := Prod.mk.inj prepared
    obtain ⟨result, rfl⟩ := Prod.mk.inj made
    obtain ⟨same, rfl⟩ := Prod.mk.inj ended
    obtain rfl := Except.ok.inj same
    exact ⟨r, paths, whole, result, saved⟩
  · rintro ⟨r, paths, prepared, made, saved⟩
    exact ⟨r, w, by rw [prepared], g, w, by rw [made], paths, w', saved, rfl⟩

/-- What a run is made of. -/
theorem Run.exists_of_prepare {w : Workspace} {start : Path} {policy : Option Policy} {r : Run}
    (prepared : prepare w start policy = .ok r) :
    ∃ root p, findProjectRoot w start = .ok root ∧
      (match policy with | some policy => pure policy | none => Policy.load w root) = Except.ok p ∧
      Analysis.analyze w p root = .ok r.analysis ∧ ∃ t,
        Target.ofProject w r.analysis.language r.analysis.discovery.root p = .ok t ∧
        r.generation = GenerationRun.ofFunctions w t r.analysis.functions := by
  obtain ⟨root, found, prepared⟩ := bind_eq_ok.mp prepared
  have rest : ∀ p, (do
      let analysis ← Analysis.analyze w p root
      let t ← Target.ofProject w analysis.language analysis.discovery.root p
      return ⟨analysis, GenerationRun.ofFunctions w t analysis.functions⟩) = Except.ok r →
      Analysis.analyze w p root = .ok r.analysis ∧ ∃ t,
        Target.ofProject w r.analysis.language r.analysis.discovery.root p = .ok t ∧
        r.generation = GenerationRun.ofFunctions w t r.analysis.functions := by
    intro p prepared
    obtain ⟨analysis, analyzed, prepared⟩ := bind_eq_ok.mp prepared
    obtain ⟨t, made, whole⟩ := bind_eq_ok.mp prepared
    rw [← pure_eq_ok.mp whole]
    exact ⟨analyzed, t, made, rfl⟩
  cases policy with
  | some p => exact ⟨root, p, found, rfl, rest p prepared⟩
  | none =>
    obtain ⟨p, loaded, prepared⟩ := bind_eq_ok.mp prepared
    exact ⟨root, p, found, loaded, rest p prepared⟩

theorem Run.prepare_eq_ok {w : Workspace} {start root : Path} {policy : Policy} {r : Run}
    (found : findProjectRoot w start = .ok root)
    (prepared : prepare w start (some policy) = .ok r) :
    Analysis.analyze w policy root = .ok r.analysis ∧ ∃ t,
      Target.ofProject w r.analysis.language r.analysis.discovery.root policy = .ok t ∧
      r.generation = GenerationRun.ofFunctions w t r.analysis.functions := by
  obtain ⟨root', p, found', given, rest⟩ := Run.exists_of_prepare prepared
  obtain rfl := Except.ok.inj (found.symm.trans found')
  obtain rfl := Except.ok.inj given
  exact rest

theorem Run.result_eq_ok {r : Run} {g : Generation} (made : r.result = .ok g) :
    ∃ generation, r.generation.result = .ok generation ∧
      g = ⟨generation.files, r.diagnostics⟩ := by
  obtain ⟨generation, made, whole⟩ := bind_eq_ok.mp made
  exact ⟨generation, made, (pure_eq_ok.mp whole).symm⟩

/-- A project whose tests can be made again: a run from its root keeps its files apart from what it
reads. -/
structure Repeatable (w : Workspace) (policy : Policy) (start : Path) (root : Place) : Prop where
  linkless : w.files.Linkless
  wellFormed : w.files.WellFormed
  current : w.files.entryAt? w.current = some .folder
  /-- The run starts from the root of the project. -/
  whole : w.expandHome start >>= w.resolve = .ok ⟨.slash, root⟩
  found : findProjectRoot w start = .ok ⟨.slash, root⟩
  /-- The folder for test files is below the root. -/
  output : ∀ name ∈ splitOn '/' policy.outputDir, Path.IsName name
  slashes : '\\' ∉ policy.outputDir
  /-- No folder that the run makes stands where an ignore file is looked for. -/
  ignore : policy.respectGitignore = true →
    (∀ front, ¬w.IsMadeFor (root ++ splitOn '/' policy.outputDir)
      (root ++ (front ++ [".gitignore".toList]))) ∧
    ¬w.IsMadeFor (root ++ splitOn '/' policy.outputDir)
      (root ++ [".git", "info", "exclude"].map String.toList)
  /-- The way to the project's own templates steps up from no such folder. -/
  templates : ∀ folder, policy.templatesDir = some folder →
    w.StepsClear (root ++ splitOn '/' policy.outputDir)
      ((⟨.slash, root⟩ : Path).append (Path.read folder))

namespace Repeatable

variable {w : Workspace} {policy : Policy} {start : Path} {root : Place}
  (p : Repeatable w policy start root)

include p

omit p in
theorem filled : splitOn '/' policy.outputDir ≠ [] := splitWhere_ne_nil _ _

theorem areParts : Path.AreParts (splitOn '/' policy.outputDir) := fun name member =>
  ⟨(p.output name member).1, (p.output name member).2.1, (p.output name member).2.2.2⟩

theorem outputFolder_eq :
    Discovery.outputFolder policy = join ['/'] (splitOn '/' policy.outputDir) := by
  have trimmed := p.areParts.trimMatches_join
  have forward : policy.outputDir.map (fun c => if c == '\\' then '/' else c) = policy.outputDir := by
    refine (List.map_congr_left fun c member => ?_).trans (List.map_id _)
    have other : c ≠ '\\' := fun same => p.slashes (same ▸ member)
    rw [if_neg (by simpa using other), id]
  rw [join_splitOn] at trimmed ⊢
  rw [Discovery.outputFolder, trimmed, forward]

theorem rootName : ∀ name ∈ root, Path.IsName name := by
  obtain ⟨q, -, resolved⟩ := bind_eq_ok.mp p.whole
  exact isName_of_resolve p.linkless (p.wellFormed.isName (by simp [p.current])) resolved

theorem valid : ∀ name ∈ root ++ splitOn '/' policy.outputDir, Path.IsName name :=
  List.forall_mem_append.mpr ⟨p.rootName, p.output⟩

/-- The files of a run lie together in the folder for them. -/
theorem together {r : Run} {g : Generation}
    (prepared : Run.prepare w start (some policy) = .ok r) (made : r.result = .ok g) :
    w.isFolder ⟨.slash, root⟩ = .ok true ∧
      Change.Together (root ++ splitOn '/' policy.outputDir) g.files ∧
      ∀ file ∈ g.files, ModulePath.IsTestName (Change.fileName file) := by
  obtain ⟨analyzed, t, target, generated⟩ := Run.prepare_eq_ok p.found prepared
  have resolved : w.expandHome ⟨.slash, root⟩ >>= w.resolve = .ok ⟨.slash, root⟩ :=
    resolve_place p.linkless p.rootName
  obtain ⟨isFolder, l, scanned, -⟩ := Analysis.analyze_eq_ok resolved analyzed
  have rooted : r.analysis.discovery.root = ⟨.slash, root⟩ := by
    obtain ⟨place, folder⟩ := isFolder_eq_true.mp isFolder
    have there := entry_eq_ok_iff.mpr ⟨place, folder⟩
    exact Discovery.scan_root (OutputSaved.rootOf_place p.linkless p.rootName there) scanned
  obtain ⟨atRoot, given⟩ := Target.ofProject_eq_ok target
  obtain ⟨generation, finished, rfl⟩ := Run.result_eq_ok made
  rw [generated] at finished
  have output : Path.read t.policy.outputDir = ⟨.relative, splitOn '/' policy.outputDir⟩ := by
    rw [given, Path.read_eq_splitOn p.areParts]
  have side := GenerationRun.together_files p.valid (atRoot.trans rooted) output
    (Analysis.plain_scope resolved analyzed) finished
  exact ⟨isFolder, side⟩

end Repeatable

/-- Beside a temporary file there is room for an ignore file. -/
theorem Change.room_of_temporary {place : Place} {tag name : Text}
    (within : IsWithin (place ++ [temporaryName tag name])) (test : ModulePath.IsTestName name) :
    IsWithin (place ++ [".gitignore".toList]) := by
  obtain ⟨stem, l, rfl⟩ := test
  have tail : 7 ≤ (Utf8.encode (ModulePath.fileTail l)).length := by cases l <;> decide
  have short : (Utf8.encode ".gitignore".toList).length = 10 := by decide
  have dot : (Utf8.encode ['.']).length = 1 := by decide
  have closing : (Utf8.encode ".tmp".toList).length = 4 := by decide
  refine within.sibling ?_
  simp only [temporaryName, Utf8.encode, List.flatMap_append, List.length_append] at tail short dot closing ⊢
  omega

/-- Making tests twice is as making them once: where what is read stands apart from what is saved, a
second run gives the same files and warnings and changes nothing. -/
theorem generateTests_again {w w' : Workspace} {policy : Policy} {start : Path} {root : Place}
    {tag again : Text} {g : Generation} (p : Repeatable w policy start root)
    (unused : ∀ file ∈ g.files, ∀ t ∈ [tag, again],
      w.files.entryAt? (root ++ splitOn '/' policy.outputDir ++
        [Change.temporaryName t (Change.fileName file)]) = none)
    (user : policy.respectGitignore = true →
      IgnoreSource.StandsApart w (root ++ splitOn '/' policy.outputDir)
        (g.files.map Change.fileName))
    (short : (Utf8.encode again).length ≤ (Utf8.encode tag).length)
    (done : (generateTests tag start (some policy) true).run w = (.ok g, w')) :
    (generateTests again start (some policy) true).run w' = (.ok g, w') := by
  obtain ⟨r, paths, prepared, made, saved⟩ := run_generateTests_eq_ok.mp done
  rw [run_generateTests_eq_ok]
  by_cases none : g.files = []
  · rw [none] at saved ⊢
    obtain ⟨-, rfl⟩ := Prod.mk.inj saved
    exact ⟨r, [], prepared, made, rfl⟩
  obtain ⟨isFolder, together, tests⟩ := p.together prepared made
  obtain ⟨grown, contents⟩ := Change.grown_of_saveAll p.linkless p.wellFormed p.valid together
    (fun file member => unused file member tag (by simp)) none saved
  have steps : ∀ name ∈ root, FileTree.IsStep name := fun name member =>
    ⟨(p.rootName name member).2.1, (p.rootName name member).2.2.1⟩
  have s : OutputSaved w w' policy root (splitOn '/' policy.outputDir)
      (g.files.map Change.fileName) := by
    constructor
    case grown => exact grown
    case linkless => exact p.linkless
    case wellFormed => exact p.wellFormed
    case current => exact p.current
    case rooted => exact ((isFolder_place p.linkless steps).mp isFolder).2 root List.prefix_rfl
    case filled => exact Repeatable.filled
    case isName => exact p.output
    case output => exact p.outputFolder_eq
    case ignore => exact p.ignore
    case tests =>
      intro name member
      obtain ⟨file, listed, rfl⟩ := List.mem_map.mp member
      exact tests file listed
    case room =>
      obtain ⟨file, listed⟩ := List.exists_mem_of_ne_nil _ none
      exact Change.room_of_temporary (contents file listed).2 (tests file listed)
  have prepared' := (s.prepare_eq p.whole p.found user p.templates).trans prepared
  have saved' : ∃ paths', (Change.saveAll again g.files).run w' = (.ok paths', w') := by
    refine Change.run_saveAll_again grown.linkless p.valid together grown.folders fun file member => ?_
    obtain ⟨content, within⟩ := contents file member
    refine ⟨content, grown.fresh together (unused file member again (by simp)), ?_⟩
    refine within.sibling ?_
    simp only [Change.temporaryName, Utf8.encode, List.flatMap_append, List.length_append] at short ⊢
    omega
  obtain ⟨paths', saved'⟩ := saved'
  exact ⟨r, paths', prepared', made, saved'⟩

/-- A project with one function in V. -/
def single : Workspace :=
  { files := ⟨[([['p']], .folder), ([['p'], "src".toList], .folder),
      ([['p'], "src".toList, "a.v".toList], .file (Utf8.encode "pub fn f() \x7b\n\x7d\n".toList))]⟩
    current := [['p']]
    environment := [("HOME".toList, "/h".toList)] }

def singleStart : Path := ⟨.slash, [['p']]⟩

def singlePolicy (outputDir : Text) : Policy :=
  { Policy.default with outputDir, language := some .v }

/-- A run on that project that saves its files. -/
def singleRun (tag outputDir : Text) : Task Generation :=
  generateTests tag singleStart (some (singlePolicy outputDir)) true

theorem single_linkless : single.files.Linkless := FileTree.linkless_of_entries (by decide)

theorem single_wellFormed : single.files.WellFormed :=
  ⟨by decide, by decide, by decide, by decide⟩

theorem single_root : single.expandHome singleStart >>= single.resolve = .ok singleStart ∧
    findProjectRoot single singleStart = .ok singleStart := by
  decide +kernel

/-- The tests of the project are made again, in a folder below its root. -/
theorem single_again :
    Repeatable single (singlePolicy "tests".toList) singleStart [['p']] ∧
    ∃ g w', (singleRun "aaaaaaaa".toList "tests".toList).run single = (.ok g, w') ∧
      g.files ≠ [] ∧ (singleRun "bbbbbbbb".toList "tests".toList).run w' = (.ok g, w') := by
  have output : splitOn '/' (singlePolicy "tests".toList).outputDir = ["tests".toList] := by decide
  have made : ∀ {q}, single.IsMadeFor ([['p']] ++ ["tests".toList]) q → q = [['p'], "tests".toList] := by
    rintro q ⟨inside, absent⟩
    have there : ∀ front ∈ ([['p'], "tests".toList] : Place).inits,
        single.files.entryAt? front = none → front = [['p'], "tests".toList] := by decide
    exact there q ((List.mem_inits _ _).mpr inside) absent
  have project : Repeatable single (singlePolicy "tests".toList) singleStart [['p']] := by
    constructor
    case linkless => exact single_linkless
    case wellFormed => exact single_wellFormed
    case current => rfl
    case whole => exact single_root.1
    case found => exact single_root.2
    case output => decide
    case slashes => decide
    case ignore =>
      intro _
      rw [output]
      constructor
      · intro front new
        have last := congrArg List.getLast? (made new)
        rw [← List.append_assoc, List.getLast?_concat] at last
        exact absurd last (by decide)
      · intro new
        exact absurd (made new) (by decide)
    case templates => exact fun folder given => nomatch given
  have ends : ((singleRun "aaaaaaaa".toList "tests".toList).run single).1.toOption.any
      (fun g => !g.files.isEmpty) = true := by decide +kernel
  obtain ⟨g, result, filled⟩ := exists_ok_of_toOption ends
  have first : (singleRun "aaaaaaaa".toList "tests".toList).run single =
    (.ok g, ((singleRun "aaaaaaaa".toList "tests".toList).run single).2) := Prod.ext result rfl
  refine ⟨project, g, _, first, by simpa using filled, ?_⟩
  refine generateTests_again project ?_ ?_ (by decide) first
  · intro file _ tag _
    rw [output]
    exact single_wellFormed.inside [_] (by simp) (by decide)
  · intro _ home known
    have house : IgnoreSource.homeOf single = .ok ⟨.slash, [['h']]⟩ := by decide +kernel
    obtain rfl := Except.ok.inj (house.symm.trans known)
    have elsewhere : ∀ q ∈ single.way (IgnoreSource.namedFile single ⟨.slash, [['h']]⟩),
        q.head? = some ['h'] := by decide +kernel
    refine ⟨fun q left => (nomatch left), fun q passed => ⟨fun new => ?_, fun n _ same => ?_⟩⟩
    · rw [output] at new
      exact absurd (made new ▸ elsewhere q passed) (by decide)
    · have head := elsewhere q passed
      rw [same] at head
      simp at head

/-- Where the folder for test files has the name of an ignore file, the next run warns that it cannot
read it. -/
theorem single_gitignore_differs :
    (single.files.Linkless ∧ single.files.WellFormed ∧
      (∀ name ∈ splitOn '/' (singlePolicy ".gitignore".toList).outputDir, Path.IsName name) ∧
      findProjectRoot single singleStart = .ok singleStart) ∧
    ∃ g w', (singleRun "aaaaaaaa".toList ".gitignore".toList).run single = (.ok g, w') ∧
      (singleRun "bbbbbbbb".toList ".gitignore".toList).run w' ≠ (.ok g, w') := by
  refine ⟨⟨single_linkless, single_wellFormed, by decide, single_root.2⟩, ?_⟩
  have silent : ((singleRun "aaaaaaaa".toList ".gitignore".toList).run single).1.toOption.any
      (fun g => g.diagnostics.isEmpty) = true := by decide +kernel
  have later : ∀ w', ((singleRun "aaaaaaaa".toList ".gitignore".toList).run single).2 = w' →
      (w'.expandHome singleStart >>= w'.resolve = .ok singleStart ∧
        findProjectRoot w' singleStart = .ok singleStart ∧
        Discovery.rootOf w' singleStart = .ok singleStart) ∧
      .warning ⟨"discovery".toList, "/p/.gitignore".toList,
        "cannot read ignore file: [Errno 21] Is a directory: '/p/.gitignore'".toList⟩ ∈
          Discovery.ownWarnings w' (singlePolicy ".gitignore".toList) singleStart [] := by
    rintro w' rfl
    decide +kernel
  obtain ⟨g, result, empty⟩ := exists_ok_of_toOption silent
  obtain ⟨⟨whole, found, rooted⟩, warned⟩ := later _ rfl
  refine ⟨g, _, Prod.ext result rfl, fun again => ?_⟩
  obtain ⟨r, _, prepared, made, -⟩ := run_generateTests_eq_ok.mp again
  obtain ⟨analyzed, -⟩ := Run.prepare_eq_ok found prepared
  obtain ⟨-, l, scanned, -⟩ := Analysis.analyze_eq_ok whole analyzed
  have reported := Discovery.mem_diagnostics_of_ownWarnings rooted scanned warned
  obtain ⟨generation, -, rfl⟩ := Run.result_eq_ok made
  rw [List.isEmpty_iff] at empty
  have all : r.diagnostics = [] := empty
  rw [Run.diagnostics, Analysis.diagnostics, List.append_assoc] at all
  rw [(List.append_eq_nil_iff.mp all).1] at reported
  exact absurd reported List.not_mem_nil

end TestSkeleton
