import TestSkeleton.Proofs.Extraction.FunctionName
import TestSkeleton.Proofs.Generation.Accounting
import TestSkeleton.Proofs.Generation.ModuleFile

/-! What the names of tests are made of.

Main statement: every test of a generation has a name that begins with a letter, and the name is made of words
exactly when that of the function is and its owner has no capital with two characters in lower case. In V the
names of functions are words. In Rust a raw identifier brings its mark into the name of the test. -/

namespace TestSkeleton

open Text

theorem Text.onlyWords_underscore : OnlyWords ['_'] := List.forall_mem_singleton.mpr (by decide)

namespace Naming

/-- A number behind a name brings in nothing but words. -/
theorem onlyWords_suffixed_iff (name : Text) (k : Nat) : OnlyWords (suffixed name k) ↔ OnlyWords name := by
  unfold suffixed
  split
  · rfl
  · have digits : OnlyWords (ofNat k) := fun c member =>
      isWord_of_isAsciiIdentifierContinue (isAsciiIdentifierContinue_of_mem_ofNat member)
    rw [onlyWords_append, onlyWords_append, and_assoc]
    exact and_iff_left ⟨onlyWords_underscore, digits⟩

theorem prefix_suffixed (name : Text) (k : Nat) : name <+: suffixed name k := by
  unfold suffixed
  split
  · exact List.prefix_refl name
  · exact ⟨['_'] ++ ofNat k, by simp⟩

end Naming

namespace Case

/-- What the owner of a function adds to the name of its test. -/
def ownerPart (f : Function) : Text :=
  match f.namedOwner? with
  | some owner => Signature.toSnakeCase owner ++ ['_']
  | none => []

theorem testName_eq (f : Function) : testName f = "test_".toList ++ (ownerPart f ++ f.name) :=
  List.append_assoc _ _ _

theorem prefix_testName (f : Function) : "test_".toList <+: testName f := ⟨_, (testName_eq f).symm⟩

theorem onlyWords_ownerPart_iff (f : Function) :
    OnlyWords (ownerPart f) ↔ ∀ owner ∈ f.owner, 'İ' ∉ owner := by
  cases declared : f.owner with
  | none => simp [ownerPart, Function.namedOwner?, declared, OnlyWords]
  | some owner =>
    have named : f.namedOwner? = if owner = [] then none else some owner := by
      rw [Function.namedOwner?, declared, Option.filter]
      by_cases empty : owner = [] <;> simp [empty]
    rw [ownerPart, named]
    by_cases empty : owner = []
    · simp [empty, OnlyWords]
    · simp [empty, onlyWords_append, onlyWords_underscore, Signature.onlyWords_toSnakeCase_iff]

theorem onlyWords_testName_iff (f : Function) :
    OnlyWords (testName f) ↔ OnlyWords f.name ∧ ∀ owner ∈ f.owner, 'İ' ∉ owner := by
  have lead : OnlyWords "test_".toList := by
    unfold OnlyWords
    decide
  rw [testName_eq, onlyWords_append, onlyWords_append, and_iff_right lead, onlyWords_ownerPart_iff, and_comm]

end Case

namespace Suite

/-- The tests of a file go by the names of their cases, perhaps with numbers behind them. -/
theorem exists_suffixed_of_mem {cases : List Case} {test : NamedCase} (member : test ∈ (ofCases cases).cases) :
    test.case ∈ cases ∧ ∃ k, test.name = Naming.suffixed test.case.name k := by
  obtain ⟨⟨name, c⟩, paired, rfl⟩ := List.mem_map.mp member
  refine ⟨(List.of_mem_zip paired).2, ?_⟩
  obtain ⟨i, place⟩ := List.mem_iff_getElem?.mp paired
  obtain ⟨given, here⟩ := List.getElem?_zip_eq_some.mp place
  have wanted : (cases.map (·.name))[i]? = some c.name := by rw [List.getElem?_map, here, Option.map_some]
  obtain ⟨k, -, found⟩ := Naming.exists_uniqueAfter ((cases.map (·.name)).take i) c.name
  rw [Naming.getElem?_unique wanted, Option.some_inj] at given
  exact ⟨k, given.symm.trans found⟩

end Suite

namespace NamedCase

/-- The opening line of a test without its line end. -/
def opening (c : NamedCase) : Text := "fn ".toList ++ c.name ++ "() \x7b".toList

theorem opening_infix (c : NamedCase) {head : Text} (lead : "fn ".toList <:+ head) (rest : Text) :
    c.opening <:+: head ++ (c.name ++ ("() \x7b\n".toList ++ rest)) := by
  obtain ⟨front, rfl⟩ := lead
  refine ⟨front, '\n' :: rest, ?_⟩
  simp [opening]

end NamedCase

/-- Nothing is dropped in front of a character that stays. -/
theorem Text.dropEndWhile_append_cons {p : Char → Bool} {c : Char} (stays : p c = false) (t behind : Text) :
    dropEndWhile p (t ++ c :: behind) = t ++ c :: dropEndWhile p behind := by
  by_cases gone : behind.reverse.dropWhile p = [] <;>
    simp [dropEndWhile, List.dropWhile_append, stays, gone]

namespace Target

theorem infix_closeLine {part t : Text} {c : Char} (inside : part ++ [c] <:+: t) (other : c ≠ '\n') :
    part ++ [c] <:+: closeLine t := by
  obtain ⟨front, behind, rfl⟩ := inside
  have whole : front ++ (part ++ [c]) ++ behind = (front ++ part) ++ c :: behind := by simp
  have stays : (· == '\n') c = false := by simpa using other
  rw [closeLine, whole, dropEndWhile_append_cons (p := (· == '\n')) stays]
  exact ⟨front, dropEndWhile (· == '\n') behind ++ ['\n'], by simp⟩

theorem opening_infix_suiteText (d : Dialect) {s : Suite} {test : NamedCase} (member : test ∈ s.cases) :
    test.opening <:+: d.suiteText s := by
  have among : ∀ (block : NamedCase → Text), test.opening <:+: block test →
      test.opening <:+: s.cases.flatMap block := by
    intro block inside
    obtain ⟨front, rest, whole⟩ := List.append_of_mem member
    rw [whole, List.flatMap_append, List.flatMap_cons]
    exact inside.trans ⟨_, _, List.append_assoc _ _ _⟩
  cases d with
  | rust crate =>
    refine (among Rust.testBlock ?_).trans (List.suffix_append _ _).isInfix
    have head : "fn ".toList <:+ (if test.case.function.isAsync then "\n#[tokio::test]\nasync fn "
        else "\n#[test]\nfn ").toList := by
      split <;> decide
    unfold Rust.testBlock
    simp only [List.append_assoc]
    exact test.opening_infix head _
  | v =>
    refine (among V.testBlock ?_).trans (List.suffix_append _ _).isInfix
    have head : "fn ".toList <:+ "\nfn ".toList := by decide
    unfold V.testBlock
    simp only [List.append_assoc]
    exact test.opening_infix head _

/-- A file with the usual text opens each of its tests. -/
theorem opening_infix_content {w : Workspace} {t : Target} {path : Text} {cases : List Case} {file : TestFile}
    (bundled : t.template? w = .ok none) (written : t.render w path cases = .ok file) {test : NamedCase}
    (member : test ∈ (Suite.ofCases cases).cases) : test.opening <:+: file.content := by
  rw [render, bundled, ok_bind] at written
  cases written
  have inside := opening_infix_suiteText t.dialect member
  have split : test.opening = ("fn ".toList ++ test.name ++ "() ".toList) ++ ['\x7b'] := by
    simp [NamedCase.opening]
  rw [split] at inside ⊢
  exact infix_closeLine inside (by decide)

end Target

namespace GenerationRun

variable {w : Workspace} {t : Target} {functions : List Function} {generation : Generation}

/-- The tests that a file is written from, under their names. -/
def testsOf (w : Workspace) (t : Target) (functions : List Function) (file : TestFile) : List NamedCase :=
  (Suite.ofCases ((ofFunctions w t functions).casesAt file.path)).cases

theorem case_mem_testsOf {file : TestFile} {test : NamedCase} (member : test ∈ testsOf w t functions file) :
    ∃ f ∈ functions, t.buildCase w f = .ok test.case ∧ ∃ k, test.name = Naming.suffixed (Case.testName f) k := by
  obtain ⟨listed, k, named⟩ := Suite.exists_suffixed_of_mem member
  obtain ⟨f, known, built⟩ := exists_function_of_mem_cases (List.mem_filter.mp listed).1
  exact ⟨f, known, built, k, by rw [named, (Target.builds_of_buildCase built).name]⟩

theorem exists_test_of_case (finished : (ofFunctions w t functions).result = .ok generation) {f : Function}
    {c : Case} (retained : f ∈ kept t functions) (built : t.buildCase w f = .ok c) :
    ∃ file ∈ generation.files, ∃ test ∈ testsOf w t functions file, test.case = c := by
  have found : c ∈ (ofFunctions w t functions).cases := by
    rw [cases_eq]
    exact List.mem_filterMap.mpr ⟨f, retained, by rw [case?, built]; rfl⟩
  obtain ⟨file, member, path⟩ := exists_file_of_mem_cases finished found
  have here : c ∈ (ofFunctions w t functions).casesAt file.path :=
    List.mem_filter.mpr ⟨found, by simp [path]⟩
  rw [← Suite.map_case_ofCases ((ofFunctions w t functions).casesAt file.path)] at here
  obtain ⟨test, listed, same⟩ := List.mem_map.mp here
  exact ⟨file, member, test, listed, same⟩

/-- The tests of a generation cover every case that can be built, and a file with the usual text opens each
of them under its name. The name begins with a letter. It is made of words exactly when the name of the
function is, and its owner has no capital with two characters in lower case. -/
theorem testName_onlyWords_iff
    (extracted : ∀ f ∈ functions, ∃ policy file source found,
      t.dialect.language.extract policy file source = .ok found ∧ f ∈ found)
    (finished : (ofFunctions w t functions).result = .ok generation) :
    (∀ f ∈ kept t functions, ∀ c, t.buildCase w f = .ok c →
      ∃ file ∈ generation.files, ∃ test ∈ testsOf w t functions file, test.case = c) ∧
    ∀ file ∈ generation.files, ∀ test ∈ testsOf w t functions file, ∃ f ∈ functions,
      t.buildCase w f = .ok test.case ∧
      (t.template? w = .ok none → test.opening <:+: file.content) ∧
      "test_".toList <+: test.name ∧
      (∀ c ∈ f.name, t.dialect.language.isNameCharacter c = true) ∧
      (OnlyWords test.name ↔ OnlyWords f.name ∧ ∀ owner ∈ f.owner, 'İ' ∉ owner) := by
  refine ⟨fun f retained c built => exists_test_of_case finished retained built, fun file member test listed => ?_⟩
  obtain ⟨f, known, built, k, named⟩ := case_mem_testsOf listed
  obtain ⟨policy, source, text, found, read, inside⟩ := extracted f known
  refine ⟨f, known, built, fun bundled => ?_, ?_, Language.isNameCharacter_of_extract read inside, ?_⟩
  · exact Target.opening_infix_content bundled (render_casesAt finished member) listed
  · rw [named]
    exact (Case.prefix_testName f).trans (Naming.prefix_suffixed _ k)
  · rw [named, Naming.onlyWords_suffixed_iff, Case.onlyWords_testName_iff]

/-- A method with a raw identifier for a name. -/
def rawMethod : Function :=
  { name := "r#type".toList
    parameters := []
    returns := "()".toList
    file := "/p/src/a.rs".toList
    owner := some ['A'] }

def rawSource : Text := "impl A \x7b pub fn r#type() \x7b\x7d \x7d".toList

def rawTarget : Target := ⟨⟨.slash, [['p']]⟩, Policy.default, .rust ⟨['k'], none⟩⟩

/-- The mark of the raw identifier stands in the name of the test. -/
theorem rawMethod_testName : ∃ generation file test,
    Language.rust.extract Policy.default rawMethod.file rawSource = .ok [rawMethod] ∧
      (ofFunctions {} rawTarget [rawMethod]).result = .ok generation ∧ file ∈ generation.files ∧
      test ∈ testsOf {} rawTarget [rawMethod] file ∧ test.name = "test_a_r#type".toList ∧
      test.opening <:+: file.content ∧ ¬OnlyWords test.name := by
  have accepted : (Language.rust.extract Policy.default rawMethod.file rawSource).toOption.any
      (· == [rawMethod]) = true := by decide +kernel
  obtain ⟨found, read, same⟩ := exists_ok_of_toOption accepted
  rw [beq_iff_eq.mp same] at read
  have extracted : ∀ f ∈ [rawMethod], ∃ policy file source found,
      Language.rust.extract policy file source = .ok found ∧ f ∈ found :=
    fun f member => ⟨_, _, _, _, read, member⟩
  have written : (ofFunctions {} rawTarget [rawMethod]).result.toOption.any
      (fun g => g.files.map (·.path) == ["/p/tests/a_tests.rs".toList]) = true := by decide +kernel
  have named : (testsOf {} rawTarget [rawMethod] ⟨"/p/tests/a_tests.rs".toList, []⟩).map (·.name) =
      ["test_a_r#type".toList] := by decide +kernel
  have made : (rawTarget.buildCase {} rawMethod).toOption.any (·.name == "test_a_r#type".toList) = true := by
    decide +kernel
  obtain ⟨c, built, -⟩ := exists_ok_of_toOption made
  obtain ⟨generation, finished, paths⟩ := exists_ok_of_toOption written
  obtain ⟨covers, names⟩ := testName_onlyWords_iff extracted finished
  obtain ⟨file, member, test, listed, -⟩ := covers rawMethod (by decide) c built
  obtain ⟨f, known, -, opens, -, -, words⟩ := names file member test listed
  have path : file.path = "/p/tests/a_tests.rs".toList := by
    have among := List.mem_map_of_mem (f := (·.path)) member
    rw [beq_iff_eq.mp paths] at among
    exact List.mem_singleton.mp among
  have name : test.name = "test_a_r#type".toList := by
    have among := List.mem_map_of_mem (f := (·.name)) listed
    rw [testsOf, path] at among
    exact List.mem_singleton.mp (named ▸ among)
  refine ⟨generation, file, test, read, finished, member, listed, name, opens rfl, fun only => ?_⟩
  obtain rfl := List.mem_singleton.mp known
  exact absurd ((words.mp only).1 '#' (by decide)) (by decide)

end GenerationRun

end TestSkeleton
