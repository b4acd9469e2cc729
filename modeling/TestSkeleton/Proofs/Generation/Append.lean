import TestSkeleton.Proofs.Generation.Accounting
import TestSkeleton.Proofs.Naming.Unique

/-! A further function and the test files in Rust that are there already.

The text of a file is a header, which its first case decides, and one block for each test, and names
are given from left to right. So a further function only adds a block at the end of one file, or a file
at the end. -/

namespace TestSkeleton

open Text

namespace Suite

theorem ofCases_append {cases : List Case} (filled : cases ≠ []) (c : Case) :
    ofCases (cases ++ [c]) =
      ⟨(ofCases cases).module,
        (ofCases cases).cases ++ [⟨Naming.uniqueAfter (cases.map (·.name)) c.name, c⟩]⟩ := by
  have long : (Naming.unique (cases.map (·.name))).length = cases.length := by
    simp [Naming.unique, Naming.length_uniqueFrom]
  obtain ⟨first, rest, rfl⟩ := List.exists_cons_of_ne_nil filled
  rw [ofCases, List.map_append, List.map_singleton, Naming.unique_append_singleton,
    List.zip_append long, List.map_append]
  rfl

end Suite

namespace Rust

theorem testBlock_ends (c : NamedCase) : ['\x7d', '\n'] <:+ testBlock c := by
  have brace : ['\x7d', '\n'] <:+ "\n\x7d\n".toList := ⟨['\n'], rfl⟩
  unfold testBlock
  exact brace.trans (List.suffix_append _ _)

theorem testBlock_ne_nil (c : NamedCase) : testBlock c ≠ [] := by
  intro none
  have ends := testBlock_ends c
  rw [none, List.suffix_nil] at ends
  cases ends

/-- The text of a file is the text with one test less, and the block of that test. -/
theorem suiteText_append (crate : Text) (s : Suite) (c : NamedCase) :
    suiteText crate ⟨s.module, s.cases ++ [c]⟩ = suiteText crate s ++ testBlock c := by
  simp [suiteText]

theorem suiteText_ends (crate : Text) {s : Suite} (filled : s.cases ≠ []) :
    ['\x7d', '\n'] <:+ suiteText crate s := by
  have whole := suiteText_append crate ⟨s.module, s.cases.dropLast⟩ (s.cases.getLast filled)
  rw [List.dropLast_append_getLast filled] at whole
  rw [whole]
  exact (testBlock_ends _).trans (List.suffix_append _ _)

/-- The test file of a path with the usual text. -/
def testFile (crate : Crate) (path : Text) (cases : List Case) : TestFile :=
  ⟨path, suiteText crate.name (Suite.ofCases cases)⟩

/-- A further test continues a file. -/
theorem testFile_append (crate : Crate) (path : Text) {cases : List Case} (filled : cases ≠ [])
    (c : Case) :
    testFile crate path (cases ++ [c]) =
      ⟨path, (testFile crate path cases).content ++
        testBlock ⟨Naming.uniqueAfter (cases.map (·.name)) c.name, c⟩⟩ := by
  rw [testFile, Suite.ofCases_append filled, suiteText_append]
  rfl

theorem testFile_singleton (crate : Crate) (path : Text) (c : Case) :
    testFile crate path [c] = ⟨path, suiteHeader crate.name c.module ++ testBlock ⟨c.name, c⟩⟩ := by
  have named : Suite.ofCases [c] = ⟨c.module, [⟨c.name, c⟩]⟩ := rfl
  simp [testFile, named, suiteText]

end Rust

namespace Target

theorem closeLine_eq_self {t : Text} (ends : ['\x7d', '\n'] <:+ t) : closeLine t = t := by
  obtain ⟨front, rfl⟩ := ends
  have kept : dropEndWhile (· == '\n') (front ++ ['\x7d', '\n']) = front ++ ['\x7d'] := by
    simp [dropEndWhile]
  rw [closeLine, kept]
  simp

/-- Without a template of the project, every group of cases can be written. -/
theorem render_rust {w : Workspace} {t : Target} {crate : Crate} (rust : t.dialect = .rust crate)
    (bundled : t.template? w = .ok none) (path : Text) {cases : List Case} (filled : cases ≠ []) :
    t.render w path cases = .ok (Rust.testFile crate path cases) := by
  have tests : (Suite.ofCases cases).cases ≠ [] := by
    intro none
    have all := Suite.map_case_ofCases cases
    rw [none, List.map_nil] at all
    exact filled all.symm
  have closed := closeLine_eq_self (Rust.suiteText_ends crate.name tests)
  rw [render, bundled, rust, ok_bind]
  exact congrArg (fun text => Except.ok (TestFile.mk path text)) closed

end Target

namespace GenerationRun

/-- Test files of a generation before and after one further test: it stands behind the tests of its
file, or has a file of its own behind the others. -/
inductive Extended (crate : Crate) (test : NamedCase) : List TestFile → List TestFile → Prop where
  | continued {front rest : List TestFile} {old : TestFile} (here : old.path = test.case.path)
      (others : ∀ file ∈ front ++ rest, file.path ≠ test.case.path)
      (more : Rust.testBlock test ≠ []) :
    Extended crate test (front ++ old :: rest)
      (front ++ ⟨old.path, old.content ++ Rust.testBlock test⟩ :: rest)
  | added {files : List TestFile} (absent : ∀ file ∈ files, file.path ≠ test.case.path) :
    Extended crate test files (files ++ [⟨test.case.path,
      Rust.suiteHeader crate.name test.case.module ++ Rust.testBlock test⟩])

section Rust

variable {w : Workspace} {t : Target} {crate : Crate}

theorem renderAll_rust (rust : t.dialect = .rust crate) (bundled : t.template? w = .ok none)
    {groups : List (Text × List Case)} (filled : ∀ entry ∈ groups, entry.2 ≠ []) :
    renderAll w t groups =
      (groups.map fun entry => (Rust.testFile crate entry.1 entry.2, entry.2.length), none) := by
  induction groups with
  | nil => rfl
  | cons entry groups ih =>
    obtain ⟨path, cases⟩ := entry
    have written := Target.render_rust rust bundled path (filled _ List.mem_cons_self)
    have later := ih fun entry member => filled entry (List.mem_cons_of_mem _ member)
    simp only [renderAll, written, later]
    rfl

/-- A generation with the usual text gives one file for each group of cases. -/
theorem result_rust (rust : t.dialect = .rust crate) (bundled : t.template? w = .ok none)
    (functions : List Function) :
    (ofFunctions w t functions).result =
      .ok ⟨(group ((kept t functions).filterMap (case? w t))).map fun entry =>
          Rust.testFile crate entry.1 entry.2,
        (ofFunctions w t functions).diagnostics⟩ := by
  have filled : ∀ entry ∈ group ((kept t functions).filterMap (case? w t)), entry.2 ≠ [] :=
    fun entry member => (mem_group.mp member).2
  rw [result_eq, cases_eq, renderAll_rust rust bundled filled]
  simp

theorem kept_append {g : Function} (retained : t.policy.skipsFunction g.name = false)
    (functions : List Function) : kept t (functions ++ [g]) = kept t functions ++ [g] := by
  simp [kept, retained]

theorem diagnostics_append {g : Function} (retained : t.policy.skipsFunction g.name = false)
    (functions : List Function) :
    (ofFunctions w t (functions ++ [g])).diagnostics =
      (ofFunctions w t functions).diagnostics ++
        (CaseOutcome.diagnostic? ⟨g, t.buildCase w g⟩).toList := by
  rw [ofFunctions_eq, ofFunctions_eq, kept_append retained]
  simp only [diagnostics, ofOutcomes, attempt, List.map_append, List.filterMap_append, List.map_cons,
    List.map_nil]
  cases warned : CaseOutcome.diagnostic? ⟨g, t.buildCase w g⟩ <;> simp [warned]

/-- The files of the groups with one more case. -/
theorem extended_group (crate : Crate) (cases : List Case) (c : Case) :
    Extended crate
      ⟨Naming.uniqueAfter ((cases.filter (·.path == c.path)).map (·.name)) c.name, c⟩
      ((group cases).map fun entry => Rust.testFile crate entry.1 entry.2)
      ((group (cases ++ [c])).map fun entry => Rust.testFile crate entry.1 entry.2) := by
  have distinct := nodup_keys_group cases
  rw [group_append]
  by_cases empty : cases.filter (·.path == c.path) = []
  · have none : (group cases).get? c.path = none := by rw [get?_group, if_pos empty]
    have absent : c.path ∉ (group cases).keys := Table.get?_eq_none_iff.mp none
    rw [none, Table.put_of_not_mem _ absent, List.map_append, empty]
    simp only [Option.getD_none, List.nil_append, List.map_cons, List.map_nil, Naming.uniqueAfter_nil,
      Rust.testFile_singleton]
    apply Extended.added
    intro file member same
    obtain ⟨entry, listed, rfl⟩ := List.mem_map.mp member
    exact absent (same ▸ List.mem_map_of_mem listed)
  · have found : (group cases).get? c.path = some (cases.filter (·.path == c.path)) := by
      rw [get?_group, if_neg empty]
    obtain ⟨front, rest, shape⟩ := List.append_of_mem ((Table.get?_eq_some_iff distinct).mp found)
    have apart : c.path ∉ Table.keys front ∧ c.path ∉ Table.keys rest := by
      rw [shape, Table.keys, List.map_append, List.map_cons, List.nodup_middle,
        List.nodup_cons] at distinct
      simpa [Table.keys, not_or] using distinct.1
    rw [found, Option.getD_some, shape, Table.put_append_cons apart.1, List.map_append,
      List.map_append, List.map_cons, List.map_cons, Rust.testFile_append crate c.path empty]
    apply Extended.continued rfl _ (Rust.testBlock_ne_nil _)
    intro file member same
    rw [← List.map_append, List.mem_map] at member
    obtain ⟨entry, listed, rfl⟩ := member
    have key : c.path ∈ Table.keys (front ++ rest) := same ▸ List.mem_map_of_mem listed
    rw [Table.keys, List.map_append, List.mem_append] at key
    exact key.elim apart.1 apart.2

/-- A further function never rewrites tests in Rust. Behind functions that have test files already it
adds one block at the end of the file that its test belongs to, or a file behind all others. One that
fails changes no file, and gives one more warning at the end. -/
theorem result_append (rust : t.dialect = .rust crate) (bundled : t.template? w = .ok none)
    (functions : List Function) (g : Function)
    (retained : t.policy.skipsFunction g.name = false) :
    ∃ before after, (ofFunctions w t functions).result = .ok before ∧
      (ofFunctions w t (functions ++ [g])).result = .ok after ∧
      match t.buildCase w g with
      | .error _ => after.files = before.files ∧
          ∃ warning, Warns w t g warning ∧ after.diagnostics = before.diagnostics ++ [warning]
      | .ok c => after.diagnostics = before.diagnostics ∧
          Extended crate
            ⟨Naming.uniqueAfter ((casesIn w t functions c.path).map (·.name)) c.name, c⟩
            before.files after.files := by
  refine ⟨_, _, result_rust rust bundled functions, result_rust rust bundled (functions ++ [g]), ?_⟩
  rw [diagnostics_append retained, kept_append retained, List.filterMap_append]
  cases built : t.buildCase w g with
  | error cause =>
    have none : case? w t g = none := by rw [case?, built]; rfl
    simp [none, CaseOutcome.diagnostic?, built, Warns]
  | ok c =>
    have found : case? w t g = some c := by rw [case?, built]; rfl
    have here : casesIn w t functions c.path =
        ((kept t functions).filterMap (case? w t)).filter (·.path == c.path) := by
      rw [← casesAt_eq, casesAt, cases_eq]
    have quiet : CaseOutcome.diagnostic? ⟨g, .ok c⟩ = none := rfl
    have last : [g].filterMap (case? w t) = [c] := by simp [found]
    simp only [quiet, last, here]
    exact ⟨List.append_nil _, extended_group crate _ c⟩

end Rust

/-- A function of a module that has tests of two functions of this name. -/
def third : Function := { name := ['f'], parameters := [], returns := [], file := "src/a.rs".toList }

theorem mixed_append :
    mixedTarget.dialect = .rust ⟨['k'], none⟩ ∧ mixedTarget.template? {} = .ok none ∧
    mixedTarget.policy.skipsFunction third.name = false ∧
    ∃ c, mixedTarget.buildCase {} third = .ok c ∧
      ∃ before after, (ofFunctions {} mixedTarget mixed).result = .ok before ∧
        (ofFunctions {} mixedTarget (mixed ++ [third])).result = .ok after ∧
        after.diagnostics = before.diagnostics ∧
        Extended ⟨['k'], none⟩ ⟨"test_f_3".toList, c⟩ before.files after.files := by
  have bundled : mixedTarget.template? {} = .ok none := rfl
  have retained : mixedTarget.policy.skipsFunction third.name = false := by decide
  have works : (mixedTarget.buildCase {} third).toOption.any (fun c =>
      Naming.uniqueAfter ((casesIn {} mixedTarget mixed c.path).map (·.name)) c.name ==
        "test_f_3".toList) = true := by
    decide +kernel
  obtain ⟨c, built, named⟩ := exists_ok_of_toOption works
  obtain ⟨before, after, first, second, further⟩ :=
    result_append (w := {}) (t := mixedTarget) rfl bundled mixed third retained
  rw [built] at further
  obtain ⟨warnings, files⟩ := further
  rw [beq_iff_eq.mp named] at files
  exact ⟨rfl, bundled, retained, c, built, before, after, first, second, warnings, files⟩

end GenerationRun

end TestSkeleton
