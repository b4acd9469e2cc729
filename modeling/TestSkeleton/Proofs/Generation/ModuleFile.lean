import TestSkeleton.Proofs.Generation.BuiltCase
import TestSkeleton.Proofs.Generation.Grouping
import TestSkeleton.Proofs.Generation.WorkUnit
import TestSkeleton.Proofs.Text.Basic
import TestSkeleton.Proofs.Workspace.Path

/-! Which modules share a test file. -/

namespace TestSkeleton

open Text

namespace ModulePath

/-- The name that the test file of a module is built from. -/
def stem (module : ModulePath) : Text :=
  if module.isEmpty then "integration".toList else join ['_'] module

def fileTail : Language → Text
  | .rust => "_tests.rs".toList
  | .v => "_test.v".toList

theorem testFileName_eq (l : Language) (module : ModulePath) :
    testFileName l module = stem module ++ fileTail l := by
  have rootName : ∀ l, testFileName l [] = "integration".toList ++ fileTail l := by
    intro l
    cases l <;> decide
  cases module with
  | nil => exact rootName l
  | cons first rest => cases l <;> rfl

/-- Whether a file with the tests of a module can have a name. -/
def IsTestName (name : Text) : Prop := ∃ stem l, name = stem ++ fileTail l

theorem IsTestName.ne {name other : Text} (test : IsTestName name)
    (rust : other.getLast? ≠ some 's') (v : other.getLast? ≠ some 'v') : other ≠ name := by
  obtain ⟨stem, l, rfl⟩ := test
  rintro rfl
  rw [List.getLast?_append] at rust v
  cases l with
  | rust =>
    have last : (fileTail .rust).getLast? = some 's' := by decide
    exact rust (by rw [last, Option.some_or])
  | v =>
    have last : (fileTail .v).getLast? = some 'v' := by decide
    exact v (by rw [last, Option.some_or])

/-- No name of a module has a slash in it. -/
def Plain (module : ModulePath) : Prop := ∀ name ∈ module, '/' ∉ name

theorem Plain.testFileName {module : ModulePath} (plain : Plain module) (l : Language) :
    '/' ∉ ModulePath.testFileName l module := by
  have tail : '/' ∉ fileTail l := by cases l <;> decide
  have front : '/' ∉ stem module := by
    unfold stem
    split
    · decide
    · exact not_mem_join (by decide) plain
  rw [testFileName_eq, List.mem_append, not_or]
  exact ⟨front, tail⟩

theorem Plain.isName_testFileName {module : ModulePath} (plain : Plain module) (l : Language) :
    Path.IsName (ModulePath.testFileName l module) := by
  have tail : 2 < (fileTail l).length := by cases l <;> decide
  have long : 2 < (ModulePath.testFileName l module).length := by
    rw [testFileName_eq, List.length_append]
    omega
  refine ⟨?_, ?_, ?_, plain.testFileName l⟩ <;> intro same <;> simp [same, Path.up] at long

end ModulePath

namespace Target

theorem outputPath_eq_child (t : Target) (module : ModulePath) :
    t.outputPath module = (t.root.append (Path.read t.policy.outputDir)).child
      (ModulePath.testFileName t.dialect.language module) := rfl

/-- The path of a test file ends in the name that its module gives it. -/
theorem outputPath_text (t : Target) : ∃ front, ∀ module : ModulePath, module.Plain →
    (t.outputPath module).text = front ++ (module.stem ++ ModulePath.fileTail t.dialect.language) := by
  refine ⟨(t.root.append (Path.read t.policy.outputDir)).root.text ++
    (t.root.append (Path.read t.policy.outputDir)).parts.flatMap (· ++ ['/']), ?_⟩
  intro module plain
  rw [outputPath_eq_child, (plain.isName_testFileName _).child, Path.text_append_name,
    ModulePath.testFileName_eq]

theorem outputPath_text_eq_iff (t : Target) {m n : ModulePath} (first : m.Plain) (second : n.Plain) :
    (t.outputPath m).text = (t.outputPath n).text ↔ m.stem = n.stem := by
  obtain ⟨front, written⟩ := outputPath_text t
  rw [written m first, written n second, List.append_cancel_left_eq, List.append_cancel_right_eq]

end Target

namespace ModulePath

theorem plain_slashParts (path : Text) : Plain (slashParts path) :=
  fun _ member => not_mem_of_mem_splitWhere rfl member

theorem withoutLead_subset (lead : Text) (parts : List Text) : withoutLead lead parts ⊆ parts := by
  unfold withoutLead
  split
  · split
    · exact List.subset_cons_self _ _
    · exact List.Subset.refl _
  · exact List.Subset.refl _

theorem withoutSource_subset (parts : List Text) : withoutSource parts ⊆ parts :=
  List.Subset.trans (withoutLead_subset _ _) (withoutLead_subset _ _)

/-- The names of a Rust module are parts of the path of its file, the last perhaps without the suffix. -/
theorem mem_ofRustFile {path name : Text} (member : name ∈ ofRustFile path) :
    name ∈ slashParts path ∨ name ++ ".rs".toList ∈ slashParts path := by
  have kept : ∀ {part}, part ∈ (withoutSource (slashParts path)).filter (· ≠ []) →
      part ∈ slashParts path :=
    fun inside => withoutSource_subset _ (List.mem_filter.mp inside).1
  simp only [ofRustFile] at member
  split at member
  · cases member
  · split at member
    · cases member
    · rename_i last found
      split at member
      · exact .inl (kept (List.dropLast_subset _ member))
      · split at member
        · rename_i stem cut
          rcases List.mem_append.mp member with earlier | final
          · exact .inl (kept (List.dropLast_subset _ earlier))
          · rw [List.mem_singleton.mp final, ← dropSuffix?_eq_some.mp cut]
            exact .inr (kept (List.mem_of_getLast? found))
        · exact .inl (kept member)

theorem mem_ofVFile {path name : Text} (member : name ∈ ofVFile path) : name ∈ slashParts path := by
  have kept : ∀ {part}, part ∈ ((slashParts path).filter fun part => part ≠ [] ∧ part ≠ ['.']).dropLast →
      part ∈ slashParts path :=
    fun inside => (List.mem_filter.mp (List.dropLast_subset _ inside)).1
  simp only [ofVFile] at member
  split at member
  · exact kept ((List.tail_sublist _).subset member)
  · exact kept member

theorem mem_ofFile {l : Language} {path name : Text} (member : name ∈ ofFile l path) :
    name ∈ slashParts path ∨ name ++ ".rs".toList ∈ slashParts path := by
  cases l with
  | rust => exact mem_ofRustFile member
  | v => exact .inl (mem_ofVFile member)

theorem plain_ofFile (l : Language) (path : Text) : Plain (ofFile l path) := by
  intro name member
  rcases mem_ofFile member with whole | stem
  · exact plain_slashParts path name whole
  · exact fun inside => plain_slashParts path _ stem (List.mem_append_left _ inside)

end ModulePath

namespace Target

/-- A case knows the module of its function, and its path is that of the module's file. -/
theorem buildCase_module {w : Workspace} {t : Target} {f : Function} {c : Case}
    (built : t.buildCase w f = .ok c) :
    t.moduleOf w f = .ok c.module ∧ c.path = (t.outputPath c.module).text := by
  have builds := builds_of_buildCase built
  exact ⟨builds.module, builds.path⟩

theorem plain_moduleOf {w : Workspace} {t : Target} {f : Function} {module : ModulePath}
    (found : t.moduleOf w f = .ok module) (scope : ∀ name ∈ f.scope, '/' ∉ name) : module.Plain := by
  obtain ⟨file, -, whole⟩ := bind_eq_ok.mp found
  rw [← pure_eq_ok.mp whole]
  intro name member
  rcases List.mem_append.mp member with inFile | inScope
  · exact ModulePath.plain_ofFile _ _ name inFile
  · exact scope name inScope

end Target

namespace GenerationRun

/-- Every case is built from a function of the project. -/
theorem exists_function_of_mem_cases {w : Workspace} {t : Target} {functions : List Function} {c : Case}
    (member : c ∈ (ofFunctions w t functions).cases) :
    ∃ f ∈ functions, t.buildCase w f = .ok c := by
  rw [ofFunctions_eq] at member
  obtain ⟨o, attempted, found⟩ := List.mem_filterMap.mp member
  obtain ⟨f, inside, rfl⟩ := List.mem_map.mp attempted
  refine ⟨f, (List.mem_filter.mp inside).1, ?_⟩
  simp only [CaseOutcome.case?] at found
  cases built : t.buildCase w f with
  | error e => simp [built, Except.toOption] at found
  | ok d => simpa [built, Except.toOption] using found

/-- All tests of a file come from the module that its header names. -/
def OneModule (cases : List Case) : Prop := ∀ c ∈ cases, c.module = (Suite.ofCases cases).module

theorem oneModule_of_agree {cases : List Case}
    (agree : ∀ c ∈ cases, ∀ d ∈ cases, c.module = d.module) : OneModule cases := by
  cases cases with
  | nil => exact fun c member => absurd member List.not_mem_nil
  | cons first rest => exact fun c member => agree c member first List.mem_cons_self

/-- The files of a generation have one module each exactly when no two of its modules have test files
of one name. The header of a file names one module, whatever else the file tests. -/
theorem files_oneModule_iff (w : Workspace) (t : Target) (functions : List Function)
    (scopes : ∀ f ∈ functions, ∀ name ∈ f.scope, '/' ∉ name) (generation : Generation)
    (finished : (ofFunctions w t functions).result = .ok generation) :
    (∀ file ∈ generation.files,
        t.render w file.path ((ofFunctions w t functions).casesAt file.path) = .ok file ∧
          OneModule ((ofFunctions w t functions).casesAt file.path)) ↔
      ∀ c ∈ (ofFunctions w t functions).cases, ∀ d ∈ (ofFunctions w t functions).cases,
        c.module.stem = d.module.stem → c.module = d.module := by
  have known : ∀ c ∈ (ofFunctions w t functions).cases,
      c.module.Plain ∧ c.path = (t.outputPath c.module).text := by
    intro c member
    obtain ⟨f, listed, built⟩ := exists_function_of_mem_cases member
    obtain ⟨found, path⟩ := Target.buildCase_module built
    exact ⟨Target.plain_moduleOf found (scopes f listed), path⟩
  have samePath : ∀ c ∈ (ofFunctions w t functions).cases, ∀ d ∈ (ofFunctions w t functions).cases,
      c.path = d.path ↔ c.module.stem = d.module.stem := by
    intro c first d second
    rw [(known c first).2, (known d second).2,
      Target.outputPath_text_eq_iff t (known c first).1 (known d second).1]
  constructor
  · intro alone c first d second stems
    obtain ⟨file, written, path⟩ := exists_file_of_mem_cases finished first
    have inFile : c ∈ (ofFunctions w t functions).casesAt file.path :=
      List.mem_filter.mpr ⟨first, by simp [path]⟩
    have alsoInFile : d ∈ (ofFunctions w t functions).casesAt file.path :=
      List.mem_filter.mpr ⟨second, by simp [path, (samePath c first d second).mpr stems]⟩
    obtain ⟨-, one⟩ := alone file written
    rw [one c inFile, one d alsoInFile]
  · intro apart file written
    refine ⟨render_casesAt finished written, oneModule_of_agree fun c first d second => ?_⟩
    obtain ⟨found, here⟩ := List.mem_filter.mp first
    obtain ⟨alsoFound, there⟩ := List.mem_filter.mp second
    apply apart c found d alsoFound
    rw [← samePath c found d alsoFound]
    simpa using (beq_iff_eq.mp here).trans (beq_iff_eq.mp there).symm

/-- A function of a flat module and one of a nested module whose names join to the same text. -/
def clashing : List Function :=
  [{ name := ['f'], parameters := [], returns := [], file := "src/a_b.rs".toList },
   { name := ['g'], parameters := [], returns := [], file := "src/a/b.rs".toList }]

def clashTarget : Target := ⟨Path.read "/p".toList, Policy.default, .rust ⟨['k'], none⟩⟩

theorem clashing_not_oneModule :
    (∀ f ∈ clashing, ∀ name ∈ f.scope, '/' ∉ name) ∧
      ∃ generation, (ofFunctions {} clashTarget clashing).result = .ok generation ∧
        ¬∀ file ∈ generation.files,
          clashTarget.render {} file.path ((ofFunctions {} clashTarget clashing).casesAt file.path) =
              .ok file ∧
            OneModule ((ofFunctions {} clashTarget clashing).casesAt file.path) := by
  have scopes : ∀ f ∈ clashing, ∀ name ∈ f.scope, '/' ∉ name := by decide
  have shared : ∃ c ∈ (ofFunctions {} clashTarget clashing).cases,
      ∃ d ∈ (ofFunctions {} clashTarget clashing).cases,
        c.module.stem = d.module.stem ∧ c.module ≠ d.module := by
    decide +kernel
  have works : (ofFunctions {} clashTarget clashing).result.isOk = true := by decide +kernel
  cases finished : (ofFunctions {} clashTarget clashing).result with
  | error e => simp [finished, Except.isOk, Except.toBool] at works
  | ok generation =>
    refine ⟨scopes, generation, rfl, fun alone => ?_⟩
    obtain ⟨c, first, d, second, stems, differ⟩ := shared
    exact differ ((files_oneModule_iff _ _ _ scopes _ finished).mp alone c first d second stems)

end GenerationRun

end TestSkeleton
