import Mathlib.Data.List.Basic
import Mathlib.Data.List.Forall2
import Mathlib.Data.List.Nodup
import TestSkeleton.Proofs.Generation.Grouping
import TestSkeleton.Proofs.Generation.WorkUnit
import TestSkeleton.Proofs.Naming.Unique

/-! What becomes of every function: a test in one file, or one warning. -/

namespace TestSkeleton

namespace Suite

/-- Naming the tests of a file takes none away and keeps their order. -/
theorem map_case_ofCases (cases : List Case) : (ofCases cases).cases.map NamedCase.case = cases := by
  have long : cases.length ≤ (Naming.unique (cases.map (·.name))).length := by
    simp [Naming.length_unique]
  simp only [ofCases, List.map_map]
  exact List.map_snd_zip long

end Suite

namespace GenerationRun

/-- The parts of a list by its keys are the list again, in another order. -/
theorem flatMap_filter_perm {α κ : Type} [BEq κ] [LawfulBEq κ] (key : α → κ) {keys : List κ}
    (distinct : keys.Nodup) {l : List α} (all : ∀ a ∈ l, key a ∈ keys) :
    (keys.flatMap fun k => l.filter fun a => key a == k).Perm l := by
  induction keys generalizing l with
  | nil =>
    rw [List.eq_nil_iff_forall_not_mem.mpr fun a member => List.not_mem_nil (all a member)]
    exact List.Perm.refl _
  | cons k keys ih =>
    obtain ⟨absent, distinct⟩ := List.nodup_cons.mp distinct
    have others : ∀ a ∈ l.filter (fun a => !(key a == k)), key a ∈ keys := by
      intro a member
      obtain ⟨listed, apart⟩ := List.mem_filter.mp member
      exact (List.mem_cons.mp (all a listed)).resolve_left (by simpa using apart)
    have rest : (keys.flatMap fun k' => l.filter fun a => key a == k') =
        keys.flatMap fun k' => (l.filter fun a => !(key a == k)).filter fun a => key a == k' := by
      apply List.flatMap_congr
      intro k' member
      rw [List.filter_filter]
      apply List.filter_congr
      intro a _
      by_cases here : key a = k'
      · have apart : key a ≠ k := fun same => absent (same ▸ here ▸ member)
        simp [here, here ▸ apart]
      · simp [here]
    rw [List.flatMap_cons, rest]
    exact ((ih distinct others).append_left _).trans (List.filter_append_perm _ l)

theorem keys_group (cases : List Case) :
    (group cases).keys = (cases.map (·.path)).eraseDups := by
  induction cases using List.reverseRecOn with
  | nil => rfl
  | append_singleton cases c ih =>
    rw [group_append, Table.keys_put, ih, List.map_append, List.eraseDups_append]
    generalize cases.map (·.path) = paths
    by_cases known : c.path ∈ paths
    · simp [known, List.removeAll]
    · simp [known, List.removeAll, List.eraseDups_cons]

/-- When every group can be written, writing them ends without a failure. -/
theorem renderAll_eq {w : Workspace} {t : Target} {groups : List (Text × List Case)}
    (renders : ∀ entry ∈ groups, ∃ file, t.render w entry.1 entry.2 = .ok file) :
    (renderAll w t groups).2 = none := by
  induction groups with
  | nil => rfl
  | cons entry groups ih =>
    obtain ⟨path, cases⟩ := entry
    obtain ⟨file, written⟩ := renders _ List.mem_cons_self
    simp only [renderAll, written]
    exact ih fun entry member => renders entry (List.mem_cons_of_mem _ member)

section Plain

variable (w : Workspace) (t : Target) (functions : List Function)

def case? (f : Function) : Option Case := (t.buildCase w f).toOption

/-- The functions without a test, among those that the policy keeps. -/
def failing : List Function := (kept t functions).filter fun f => (case? w t f).isNone

/-- The functions with a test in the file of a path. -/
def testedIn (path : Text) : List Function :=
  (kept t functions).filter fun f => (case? w t f).any (·.path == path)

/-- The cases for the file of a path. -/
def casesIn (path : Text) : List Case := (testedIn w t functions path).filterMap (case? w t)

/-- A file has one test for each of some functions, in their order. -/
def Tests (file : TestFile) (tested : List Function) : Prop :=
  ∃ cases : List Case, tested.map (t.buildCase w) = cases.map .ok ∧
    (Suite.ofCases cases).cases.map NamedCase.case = cases ∧ t.render w file.path cases = .ok file

/-- A warning names a function and why it has no test. -/
def Warns (f : Function) (d : Diagnostic) : Prop :=
  ∃ cause, t.buildCase w f = .error cause ∧
    d = ⟨"synthesis".toList, f.file, f.qualifiedName ++ ": ".toList ++ CaseOutcome.reason cause⟩

/-- A generation that accounts for all functions that the policy keeps. -/
structure Accounts (generation : Generation) : Prop where
  /-- Files test the functions of their paths, in order. -/
  tests : ∀ file ∈ generation.files, Tests w t file (testedIn w t functions file.path)
  /-- Files come in the order in which their paths first occur. -/
  paths : generation.files.map (·.path) =
    ((kept t functions).filterMap fun f => (case? w t f).map (·.path)).eraseDups
  distinct : (generation.files.map (·.path)).Nodup
  /-- Every function is tested once in one file, or fails. -/
  complete : ((generation.files.flatMap fun file => testedIn w t functions file.path) ++
    failing w t functions).Perm (kept t functions)
  /-- Every function that fails has one warning, in order. -/
  warnings : List.Forall₂ (Warns w t) (failing w t functions) generation.diagnostics

end Plain

section Accounts

variable {w : Workspace} {t : Target} {functions : List Function}

theorem cases_eq : (ofFunctions w t functions).cases =
    (kept t functions).filterMap (case? w t) := by
  rw [ofFunctions_eq]
  simp only [cases, ofOutcomes, attempt, List.filterMap_map]
  rfl

theorem casesAt_eq (path : Text) :
    (ofFunctions w t functions).casesAt path = casesIn w t functions path := by
  rw [casesAt, cases_eq, casesIn, testedIn, List.filter_filterMap, List.filterMap_filter]
  apply List.filterMap_congr
  intro f _
  cases case? w t f with
  | none => rfl
  | some c => by_cases same : c.path = path <;> simp [same]

theorem map_buildCase_testedIn (path : Text) :
    (testedIn w t functions path).map (t.buildCase w) =
      (casesIn w t functions path).map .ok := by
  have built : ∀ f ∈ testedIn w t functions path, ∃ c, t.buildCase w f = .ok c := by
    intro f member
    have tested := (List.mem_filter.mp member).2
    unfold case? at tested
    cases made : t.buildCase w f with
    | error e => simp [made, Except.toOption] at tested
    | ok c => exact ⟨c, rfl⟩
  rw [casesIn]
  generalize testedIn w t functions path = tested at built
  induction tested with
  | nil => rfl
  | cons f rest ih =>
    obtain ⟨c, made⟩ := built f List.mem_cons_self
    have found : case? w t f = some c := by rw [case?, made]; rfl
    rw [List.map_cons, made, List.filterMap_cons_some found, List.map_cons,
      ih fun f member => built f (List.mem_cons_of_mem _ member)]

/-- The files have the paths of their groups. -/
theorem map_path_renderAll {groups : List (Text × List Case)} {rendered : List (TestFile × Nat)}
    (finished : renderAll w t groups = (rendered, none)) :
    rendered.map (·.1.path) = groups.map (·.1) := by
  have written := map_renderAll finished
  have named : ∀ entry ∈ groups,
      (t.render w entry.1 entry.2).map TestFile.path = .ok entry.1 := by
    intro entry member
    have listed := List.mem_map_of_mem (f := fun entry => t.render w entry.1 entry.2) member
    rw [written] at listed
    obtain ⟨file, -, same⟩ := List.mem_map.mp listed
    rw [← same]
    exact congrArg Except.ok (render_path same.symm)
  have paths := congrArg (List.map (Except.map TestFile.path)) written
  rw [List.map_map, List.map_map] at paths
  have known := (List.map_congr_left named).symm.trans paths
  have injective : Function.Injective (Except.ok (ε := Failure) (α := Text)) :=
    fun _ _ => Except.ok.inj
  apply injective.list_map
  rw [List.map_map, List.map_map]
  exact known.symm

theorem files_paths {generation : Generation}
    (finished : (ofFunctions w t functions).result = .ok generation) :
    generation.files.map (·.path) =
      ((kept t functions).filterMap fun f => (case? w t f).map (·.path)).eraseDups := by
  obtain ⟨whole, files⟩ := rendered_of_result finished
  have paths := map_path_renderAll whole
  rw [files, GenerationRun.files, List.map_map]
  refine paths.trans ((keys_group _).trans ?_)
  rw [cases_eq, List.map_filterMap]

theorem nodup_files_paths {generation : Generation}
    (finished : (ofFunctions w t functions).result = .ok generation) :
    (generation.files.map (·.path)).Nodup := by
  have keys := nodup_keys_group (ofFunctions w t functions).cases
  rwa [keys_group, cases_eq, List.map_filterMap, ← files_paths finished] at keys

variable (w t functions) in
theorem diagnostics_forall₂ :
    List.Forall₂ (Warns w t) (failing w t functions) (ofFunctions w t functions).diagnostics := by
  rw [ofFunctions_eq]
  simp only [diagnostics, ofOutcomes, attempt, failing, List.filterMap_map]
  induction kept t functions with
  | nil => exact List.Forall₂.nil
  | cons f rest ih =>
    cases made : t.buildCase w f with
    | ok c =>
      have skipped : (CaseOutcome.diagnostic? ∘ fun f => ⟨f, t.buildCase w f⟩) f = none := by
        simp [CaseOutcome.diagnostic?, made]
      rw [List.filterMap_cons_none skipped, List.filter_cons_of_neg (by simp [case?, made, Except.toOption])]
      exact ih
    | error cause =>
      have warned : (CaseOutcome.diagnostic? ∘ fun f => ⟨f, t.buildCase w f⟩) f =
          some ⟨"synthesis".toList, f.file,
            f.qualifiedName ++ ": ".toList ++ CaseOutcome.reason cause⟩ := by
        simp [CaseOutcome.diagnostic?, made]
      rw [List.filterMap_cons_some warned, List.filter_cons_of_pos (by simp [case?, made, Except.toOption])]
      exact List.Forall₂.cons ⟨cause, made, rfl⟩ ih

/-- A generation whose groups can all be written ends well. -/
theorem exists_result
    (renders : ∀ path, casesIn w t functions path ≠ [] →
      ∃ file, t.render w path (casesIn w t functions path) = .ok file) :
    ∃ generation, (ofFunctions w t functions).result = .ok generation ∧
      generation.diagnostics = (ofFunctions w t functions).diagnostics := by
  have writes : ∀ entry ∈ group (ofFunctions w t functions).cases,
      ∃ file, t.render w entry.1 entry.2 = .ok file := by
    rintro ⟨path, members⟩ listed
    obtain ⟨shape, filled⟩ := mem_group.mp listed
    have here : members = casesIn w t functions path := shape.trans (casesAt_eq path)
    rw [here] at filled ⊢
    exact renders path filled
  have whole : (ofFunctions w t functions).failure = none := renderAll_eq writes
  exact ⟨_, by rw [result, whole], rfl⟩

theorem complete_perm {paths : List Text}
    (first : paths = ((kept t functions).filterMap fun f => (case? w t f).map (·.path)).eraseDups)
    (distinct : paths.Nodup) :
    (paths.flatMap (testedIn w t functions) ++ failing w t functions).Perm (kept t functions) := by
  have keyed : ∀ path, testedIn w t functions path =
      ((kept t functions).filter fun f => (case? w t f).isSome).filter fun f =>
        (case? w t f).map (·.path) == some path := by
    intro path
    rw [testedIn, List.filter_filter]
    apply List.filter_congr
    intro f _
    cases case? w t f <;> simp
  have all : ∀ f ∈ (kept t functions).filter (fun f => (case? w t f).isSome),
      (case? w t f).map (·.path) ∈ paths.map some := by
    intro f member
    obtain ⟨listed, tested⟩ := List.mem_filter.mp member
    obtain ⟨c, found⟩ := Option.isSome_iff_exists.mp tested
    rw [found, Option.map_some, List.mem_map]
    refine ⟨c.path, ?_, rfl⟩
    rw [first, List.mem_eraseDups, List.mem_filterMap]
    exact ⟨f, listed, by rw [found, Option.map_some]⟩
  have apart : (paths.map some).Nodup := distinct.map fun _ _ => Option.some.inj
  have parts := flatMap_filter_perm (fun f => (case? w t f).map (·.path)) apart all
  rw [List.flatMap_map] at parts
  simp only [← keyed] at parts
  have fails : failing w t functions =
      (kept t functions).filter fun f => !(case? w t f).isSome := by
    simp only [failing, Option.not_isSome]
  rw [fails]
  exact (parts.append_right _).trans (List.filter_append_perm _ _)

/-- The functions that are kept of those that do not fail. -/
theorem kept_without_failing :
    kept t (functions.filter fun f => f ∉ failing w t functions) =
      (kept t functions).filter fun f => (case? w t f).isSome := by
  rw [kept, kept, List.filter_filter, List.filter_filter]
  apply List.filter_congr
  intro f member
  cases skipped : t.policy.skipsFunction f.name with
  | true => simp
  | false =>
    have here : f ∈ kept t functions := List.mem_filter.mpr ⟨member, by simp [skipped]⟩
    cases found : case? w t f with
    | none => simp [failing, here, found]
    | some c => simp [failing, found]

theorem result_eq : (ofFunctions w t functions).result =
    match renderAll w t (group (ofFunctions w t functions).cases) with
    | (_, some cause) => .error cause
    | (rendered, none) => .ok ⟨rendered.map (·.1), (ofFunctions w t functions).diagnostics⟩ := by
  have written : renderAll w t (group (ofFunctions w t functions).cases) =
      ((ofFunctions w t functions).rendered, (ofFunctions w t functions).failure) := rfl
  rw [written, result]
  cases (ofFunctions w t functions).failure <;> rfl

/-- Functions that fail leave no trace in the files. -/
theorem result_without_failing {generation : Generation}
    (finished : (ofFunctions w t functions).result = .ok generation) :
    (ofFunctions w t (functions.filter fun f => f ∉ failing w t functions)).result =
      .ok ⟨generation.files, []⟩ := by
  have sameCases : (ofFunctions w t (functions.filter fun f => f ∉ failing w t functions)).cases =
      (ofFunctions w t functions).cases := by
    rw [cases_eq, cases_eq, kept_without_failing, List.filterMap_filter]
    apply List.filterMap_congr
    intro f _
    cases case? w t f <;> simp
  have silent :
      (ofFunctions w t (functions.filter fun f => f ∉ failing w t functions)).diagnostics = [] := by
    have warned := diagnostics_forall₂ w t (functions.filter fun f => f ∉ failing w t functions)
    rw [failing, kept_without_failing, List.filter_filter, List.filter_eq_nil_iff.mpr] at warned
    · exact List.forall₂_nil_left_iff.mp warned
    · intro f _
      cases case? w t f <;> simp
  obtain ⟨whole, files⟩ := rendered_of_result finished
  rw [result_eq, sameCases, whole, silent, files]
  rfl

variable (w t functions) in
/-- Generation loses no function and uses none twice: where the files can be written, every function
that the policy keeps has one test in one file or one warning, all in order, and the files are those
of the functions that do not fail. -/
theorem ofFunctions_accounts
    (renders : ∀ path, casesIn w t functions path ≠ [] →
      ∃ file, t.render w path (casesIn w t functions path) = .ok file) :
    ∃ generation, (ofFunctions w t functions).result = .ok generation ∧
      Accounts w t functions generation ∧
      (ofFunctions w t (functions.filter fun f => f ∉ failing w t functions)).result =
        .ok ⟨generation.files, []⟩ := by
  obtain ⟨generation, finished, warned⟩ := exists_result renders
  have paths := files_paths finished
  have distinct := nodup_files_paths finished
  refine ⟨generation, finished, ?_, result_without_failing finished⟩
  constructor
  case tests =>
    intro file member
    have written := render_casesAt finished member
    rw [casesAt_eq] at written
    exact ⟨_, map_buildCase_testedIn _, Suite.map_case_ofCases _, written⟩
  case paths => exact paths
  case distinct => exact distinct
  case complete =>
    have whole := complete_perm paths distinct
    rwa [List.flatMap_map] at whole
  case warnings =>
    rw [warned]
    exact diagnostics_forall₂ w t functions

end Accounts

/-- Three functions that have tests in two files, and one whose type is nested too deep to have a
literal. -/
def mixed : List Function :=
  [{ name := ['f'], parameters := [], returns := [], file := "src/a.rs".toList },
   { name := ['d'], parameters := [⟨['x'], List.replicate 40 '&' ++ "u8".toList⟩],
     returns := [], file := "src/a.rs".toList },
   { name := ['g'], parameters := [], returns := [], file := "src/b.rs".toList },
   { name := ['f'], parameters := [], returns := [], file := "src/a.rs".toList }]

def mixedTarget : Target := ⟨Path.read "/p".toList, Policy.default, .rust ⟨['k'], none⟩⟩

theorem mixed_accounts :
    (failing {} mixedTarget mixed).map (·.name) = [['d']] ∧
    (testedIn {} mixedTarget mixed "/p/tests/a_tests.rs".toList).map (·.name) = [['f'], ['f']] ∧
    (∀ path, casesIn {} mixedTarget mixed path ≠ [] →
      ∃ file, mixedTarget.render {} path (casesIn {} mixedTarget mixed path) = .ok file) ∧
    ∃ generation, (ofFunctions {} mixedTarget mixed).result = .ok generation ∧
      Accounts {} mixedTarget mixed generation ∧
      (ofFunctions {} mixedTarget
        (mixed.filter fun f => f ∉ failing {} mixedTarget mixed)).result =
          .ok ⟨generation.files, []⟩ := by
  have renders : ∀ path, casesIn {} mixedTarget mixed path ≠ [] →
      ∃ file, mixedTarget.render {} path (casesIn {} mixedTarget mixed path) = .ok file :=
    fun path _ => ⟨_, rfl⟩
  exact ⟨by decide +kernel, by decide +kernel, renders,
    ofFunctions_accounts {} mixedTarget mixed renders⟩

end GenerationRun

end TestSkeleton
