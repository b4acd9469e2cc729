import TestSkeleton.Proofs.Generation.Append
import TestSkeleton.Proofs.Generation.ModuleFile
import TestSkeleton.Proofs.Text.Basic
import TestSkeleton.Text.Class

/-! Which modules a test file in V imports.

A file imports the module under test, and that of times where one of its literals has the name of times with a
dot in it. Main statement: a module is imported twice just when the file is for the module of times and a literal
has that name, and times is imported without need just when its name only occurs at the end of longer words. -/

namespace TestSkeleton

open Text

/-- A name without the separator is joined from itself alone. -/
theorem Text.join_eq_iff {sep : Char} {name : Text} (filled : name ≠ []) (whole : sep ∉ name)
    {pieces : List Text} : join [sep] pieces = name ↔ pieces = [name] := by
  constructor
  · intro same
    match pieces with
    | [] => exact absurd same.symm filled
    | [piece] => exact congrArg (fun t => [t]) same
    | piece :: next :: rest =>
      have inside : sep ∈ join [sep] (piece :: next :: rest) := by simp [join]
      exact absurd (same ▸ inside) whole
  · rintro rfl
    rfl

/-- Blocks with a common end give their text that end. -/
theorem Text.suffix_flatMap {α : Type} {tail : Text} {block : α → Text} (ends : ∀ a, tail <:+ block a)
    {l : List α} (filled : l ≠ []) : tail <:+ l.flatMap block := by
  rw [← List.dropLast_append_getLast filled, List.flatMap_append, List.flatMap_singleton]
  exact (ends _).trans (List.suffix_append _ _)

namespace V

/-- The module of times. -/
def time : Text := "time".toList

/-- The name of times stands in a literal with a dot behind it: as a word of its own, or as the end of a longer
one. -/
def HoldsTime (longer : Bool) (literal : Text) : Prop :=
  ∃ front behind, literal = front ++ "time.".toList ++ behind ∧ front.getLast?.any isWord = longer

instance (longer : Bool) (literal : Text) : Decidable (HoldsTime longer literal) :=
  decidable_of_iff' _ (exists_split_iff (p := fun front => front.getLast?.any isWord = longer))

theorem usesTime_iff (b : Binding) : usesTime b = true ↔ ∃ longer, HoldsTime longer b.value := by
  rw [usesTime, contains_iff_infix]
  constructor
  · rintro ⟨front, behind, whole⟩
    exact ⟨_, front, behind, whole.symm, rfl⟩
  · rintro ⟨_, front, behind, whole, -⟩
    exact ⟨front, behind, whole.symm⟩

/-- A test of the file binds a local to a literal with the name of times. -/
def BindsTime (s : Suite) (longer : Bool) : Prop :=
  ∃ c ∈ s.cases, ∃ b ∈ c.case.locals, HoldsTime longer b.value

instance (s : Suite) (longer : Bool) : Decidable (BindsTime s longer) :=
  inferInstanceAs (Decidable (∃ c ∈ s.cases, ∃ b ∈ c.case.locals, HoldsTime longer b.value))

theorem any_usesTime_iff (s : Suite) :
    (s.cases.any fun c => c.case.locals.any usesTime) = true ↔ ∃ longer, BindsTime s longer := by
  simp only [List.any_eq_true, usesTime_iff]
  constructor
  · rintro ⟨c, test, b, bound, longer, holds⟩
    exact ⟨longer, c, test, b, bound, holds⟩
  · rintro ⟨longer, c, test, b, bound, holds⟩
    exact ⟨c, test, b, bound, longer, holds⟩

theorem imports_eq (s : Suite) :
    imports s = (if s.module = [] then [] else [join ['.'] s.module]) ++
      if ∃ longer, BindsTime s longer then [time] else [] := by
  simp only [imports, any_usesTime_iff, List.isEmpty_iff]
  rfl

theorem mem_imports_iff {s : Suite} {name : Text} :
    name ∈ imports s ↔
      (s.module ≠ [] ∧ name = join ['.'] s.module) ∨ (name = time ∧ ∃ longer, BindsTime s longer) := by
  rw [imports_eq, List.mem_append]
  by_cases root : s.module = [] <;> by_cases bound : ∃ longer, BindsTime s longer <;> simp [root, bound]

theorem join_module_eq_time {module : ModulePath} : join ['.'] module = time ↔ module = [time] :=
  join_eq_iff (by decide) (by decide)

theorem time_mem_imports_iff (s : Suite) :
    time ∈ imports s ↔ s.module = [time] ∨ ∃ longer, BindsTime s longer := by
  rw [mem_imports_iff, eq_comm (a := time), join_module_eq_time]
  constructor
  · rintro (⟨-, own⟩ | ⟨-, bound⟩)
    · exact .inl own
    · exact .inr bound
  · rintro (own | bound)
    · exact .inl ⟨by simp [own], own⟩
    · exact .inr ⟨rfl, bound⟩

theorem nodup_imports_iff (s : Suite) :
    (imports s).Nodup ↔ ¬(s.module = [time] ∧ ∃ longer, BindsTime s longer) := by
  rw [imports_eq]
  by_cases root : s.module = []
  · by_cases bound : ∃ longer, BindsTime s longer <;> simp [root, bound]
  · by_cases bound : ∃ longer, BindsTime s longer <;> simp [root, bound, join_module_eq_time]

/-- The list of imports is as it should be: nothing twice, and times for its own tests and for literals that
name it. -/
def ExactImports (s : Suite) : Prop :=
  (imports s).Nodup ∧ (time ∈ imports s ↔ s.module = [time] ∨ BindsTime s false)

theorem exactImports_iff (s : Suite) :
    ExactImports s ↔
      if s.module = [time] then ∀ longer, ¬BindsTime s longer else BindsTime s true → BindsTime s false := by
  rw [ExactImports, nodup_imports_iff, time_mem_imports_iff, Bool.exists_bool, Bool.forall_bool]
  split <;> rename_i own <;> simp [own]

/-- The lines of the imports. -/
def importLines (names : List Text) : Text := names.flatMap fun name => "import ".toList ++ name ++ ['\n']

/-- The text of a file imports some modules: their lines, in order, are all that stands between the first lines
of the file and its first test. -/
def OpensWith (names : List Text) (content : Text) : Prop :=
  ∃ main ∈ [[], "module main\n".toList, "module main\n\n".toList], ∃ tests,
    content = Suite.headline ++ main ++ importLines names ++ "\nfn ".toList ++ tests

theorem testBlock_ends (c : NamedCase) : ['\x7d', '\n'] <:+ testBlock c := by
  have brace : ['\x7d', '\n'] <:+ "\n\x7d\n".toList := ⟨['\n'], rfl⟩
  unfold testBlock
  exact brace.trans (List.suffix_append _ _)

theorem exists_testBlock_eq (c : NamedCase) : ∃ rest, testBlock c = "\nfn ".toList ++ rest := by
  unfold testBlock
  simp only [List.append_assoc]
  exact ⟨_, rfl⟩

theorem opensWith_suiteText {s : Suite} (filled : s.cases ≠ []) : OpensWith (imports s) (suiteText s) := by
  obtain ⟨c, rest, shape⟩ := List.exists_cons_of_ne_nil filled
  obtain ⟨test, block⟩ := exists_testBlock_eq c
  refine ⟨if s.module.isEmpty then "module main\n".toList ++ if (imports s).isEmpty then [] else ['\n'] else [],
    ?_, test ++ rest.flatMap testBlock, ?_⟩
  · split
    · split
      · decide
      · decide
    · decide
  · rw [suiteText, suiteHeader, shape, List.flatMap_cons, block, importLines]
    simp only [List.append_assoc]

end V

namespace Suite

theorem cases_ofCases_ne_nil {cases : List Case} (filled : cases ≠ []) : (ofCases cases).cases ≠ [] := by
  intro none
  have all := map_case_ofCases cases
  rw [none, List.map_nil] at all
  exact filled all.symm

end Suite

namespace Target

theorem opensWith_content {w : Workspace} {t : Target} {path : Text} {cases : List Case} {file : TestFile}
    (v : t.dialect = .v) (bundled : t.template? w = .ok none) (filled : cases ≠ [])
    (written : t.render w path cases = .ok file) :
    V.OpensWith (V.imports (Suite.ofCases cases)) file.content := by
  have tests := Suite.cases_ofCases_ne_nil filled
  have ends : ['\x7d', '\n'] <:+ V.suiteText (Suite.ofCases cases) :=
    (suffix_flatMap V.testBlock_ends tests).trans (List.suffix_append _ _)
  rw [render, bundled, v, ok_bind] at written
  cases written
  change V.OpensWith _ (closeLine (V.suiteText (Suite.ofCases cases)))
  rw [closeLine_eq_self ends]
  exact V.opensWith_suiteText tests

end Target

namespace GenerationRun

variable {w : Workspace} {t : Target} {functions : List Function} {generation : Generation}

/-- The tests for the file of a path, with the module that it is for. -/
def suiteAt (w : Workspace) (t : Target) (functions : List Function) (path : Text) : Suite :=
  Suite.ofCases ((ofFunctions w t functions).casesAt path)

/-- Every file in V is written from the cases of its path, and its imports are those of their suite, in the usual
text and in a template of the project. A module is imported twice just when a file for the module of times has the
name of times in a literal. Times is imported for its own tests and for its name in a literal, also at the end of a
longer word. -/
theorem exactImports_of_result (v : t.dialect = .v)
    (finished : (ofFunctions w t functions).result = .ok generation) :
    ∀ file ∈ generation.files, ∃ s, s = suiteAt w t functions file.path ∧
      (∀ test ∈ s.cases, ∃ f ∈ functions, t.buildCase w f = .ok test.case) ∧
      (t.template? w = .ok none → V.OpensWith (V.imports s) file.content) ∧
      Table.get? "imports".toList (t.dialect.names s) = some (.texts (V.imports s)) ∧
      ((V.imports s).Nodup ↔ ¬(s.module = [V.time] ∧ ∃ longer, V.BindsTime s longer)) ∧
      (V.time ∈ V.imports s ↔ s.module = [V.time] ∨ ∃ longer, V.BindsTime s longer) ∧
      (V.ExactImports s ↔
        if s.module = [V.time] then ∀ longer, ¬V.BindsTime s longer
        else V.BindsTime s true → V.BindsTime s false) := by
  intro file member
  refine ⟨_, rfl, fun test listed => ?_, fun bundled => ?_, ?_, V.nodup_imports_iff _, V.time_mem_imports_iff _,
    V.exactImports_iff _⟩
  · have case : test.case ∈ (ofFunctions w t functions).casesAt file.path := by
      rw [← Suite.map_case_ofCases ((ofFunctions w t functions).casesAt file.path)]
      exact List.mem_map_of_mem listed
    exact exists_function_of_mem_cases (List.mem_filter.mp case).1
  · exact Target.opensWith_content v bundled (casesAt_ne_nil finished member) (render_casesAt finished member)
  · rw [v]
    rfl

/-- A function of the module of times that takes a time, and one that takes a clock of a module whose name ends
like that of times. -/
def timed : List Function :=
  [{ name := ['f'], parameters := [⟨['t'], "time.Time".toList⟩], returns := "int".toList
     file := "/p/src/time/a.v".toList },
   { name := ['g'], parameters := [⟨['c'], "runtime.Clock".toList⟩], returns := "int".toList
     file := "/p/src/a.v".toList }]

def timedTarget : Target := ⟨⟨.slash, [['p']]⟩, Policy.default, .v⟩

def timedSuite (path : String) : Suite := suiteAt {} timedTarget timed path.toList

/-- The first file imports times twice, the second without need. -/
theorem timed_imports : ∃ generation, (ofFunctions {} timedTarget timed).result = .ok generation ∧
    (∃ double ∈ generation.files, double.path = "/p/tests/time_test.v".toList ∧
      V.OpensWith [V.time, V.time] double.content ∧
      ¬(V.imports (timedSuite "/p/tests/time_test.v")).Nodup) ∧
    ∃ idle ∈ generation.files, idle.path = "/p/tests/integration_test.v".toList ∧
      V.OpensWith [V.time] idle.content ∧
      (timedSuite "/p/tests/integration_test.v").module = [] ∧
      ¬V.BindsTime (timedSuite "/p/tests/integration_test.v") false ∧
      ¬V.ExactImports (timedSuite "/p/tests/integration_test.v") := by
  have written : (ofFunctions {} timedTarget timed).result.toOption.any (fun g => g.files.map (·.path) ==
      ["/p/tests/time_test.v".toList, "/p/tests/integration_test.v".toList]) = true := by decide +kernel
  obtain ⟨generation, finished, paths⟩ := exists_ok_of_toOption written
  have paths := beq_iff_eq.mp paths
  have found : ∀ path ∈ generation.files.map (·.path), ∃ file ∈ generation.files, file.path = path :=
    fun path member => List.mem_map.mp member
  refine ⟨generation, finished, ?_, ?_⟩
  · obtain ⟨double, member, path⟩ := found "/p/tests/time_test.v".toList (by rw [paths]; decide)
    obtain ⟨s, here, -, opens, -, once, -, -⟩ := exactImports_of_result rfl finished double member
    obtain rfl : s = timedSuite "/p/tests/time_test.v" := by rw [here, path]; rfl
    have own : (timedSuite "/p/tests/time_test.v").module = [V.time] := by decide +kernel
    have bound : V.BindsTime (timedSuite "/p/tests/time_test.v") false := by decide +kernel
    have twice : V.imports (timedSuite "/p/tests/time_test.v") = [V.time, V.time] := by decide +kernel
    exact ⟨double, member, path, twice ▸ opens rfl, fun distinct => once.mp distinct ⟨own, false, bound⟩⟩
  · obtain ⟨idle, member, path⟩ := found "/p/tests/integration_test.v".toList (by rw [paths]; decide)
    obtain ⟨s, here, -, opens, -, -, -, exact⟩ := exactImports_of_result rfl finished idle member
    obtain rfl : s = timedSuite "/p/tests/integration_test.v" := by rw [here, path]; rfl
    have root : (timedSuite "/p/tests/integration_test.v").module = [] := by decide +kernel
    have inside : V.BindsTime (timedSuite "/p/tests/integration_test.v") true := by decide +kernel
    have apart : ¬V.BindsTime (timedSuite "/p/tests/integration_test.v") false := by decide +kernel
    have only : V.imports (timedSuite "/p/tests/integration_test.v") = [V.time] := by decide +kernel
    refine ⟨idle, member, path, only ▸ opens rfl, root, apart, fun holds => apart ?_⟩
    have needs := exact.mp holds
    rw [if_neg (by rw [root]; decide)] at needs
    exact needs inside

end GenerationRun

end TestSkeleton
