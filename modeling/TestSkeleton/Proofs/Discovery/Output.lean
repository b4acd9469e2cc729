import TestSkeleton.Proofs.Discovery.Reinclusion

/-! The folder for test files in a scan.

A policy names the folder by a text. Files are written where the text leads from the root, as a path. A
scan compares the text itself, without its outer slashes and with backslashes as slashes, with the names
between the root and a folder. The two agree where the text spells plain names between single slashes; a
text that no folder is called by leaves the scan as it is without a folder for test files. -/

namespace TestSkeleton

open Text

namespace Discovery

/-- Whether a text spells names and nothing else: between single slashes, slashes at the end aside. -/
def Spells (t : Text) (names : Place) : Prop :=
  (∀ name ∈ names, Path.IsName name ∧ '\\' ∉ name) ∧
    ∃ n, t = join ['/'] names ++ List.replicate n '/'

/-- The policy without a folder for test files. -/
def withoutOutput (policy : Policy) : Policy := { policy with outputDir := [] }

theorem outputFolder_withoutOutput (policy : Policy) : outputFolder (withoutOutput policy) = [] := rfl

theorem Spells.areParts {t : Text} {names : Place} (spells : Spells t names) : Path.AreParts names :=
  fun name member =>
    have isName := (spells.1 name member).1
    ⟨isName.1, isName.2.1, isName.2.2.2⟩

/-- A path text that spells names leads down by them. -/
theorem Spells.read {t : Text} {names : Place} (spells : Spells t names) (filled : names ≠ []) :
    Path.read t = ⟨.relative, names⟩ := by
  obtain ⟨n, rfl⟩ := spells.2
  exact Path.read_join_append spells.areParts filled n

/-- A scan passes over the folder that a text spells. -/
theorem Spells.outputFolder {policy : Policy} {names : Place} (spells : Spells policy.outputDir names) :
    outputFolder policy = join ['/'] names := by
  obtain ⟨n, text⟩ := spells.2
  have forward : ∀ c ∈ join ['/'] names, (if c == '\\' then '/' else c) = c := by
    intro c member
    have other : c ≠ '\\' := by
      rintro rfl
      exact not_mem_join (by decide) (fun name inside => (spells.1 name inside).2) member
    rw [if_neg (by simpa using other)]
  rw [Discovery.outputFolder, text, spells.areParts.trimMatches_join_append]
  exact (List.map_congr_left forward).trans (List.map_id _)

/-- A text with a piece that is no name is not what a folder is called by. -/
theorem join_ne_of_piece {place : Place} (isName : ∀ name ∈ place, Path.IsName name) (filled : place ≠ [])
    {t piece : Text} (member : piece ∈ splitOn '/' t) (other : ¬ Path.IsName piece) :
    join ['/'] place ≠ t := by
  rintro rfl
  rw [splitOn_join filled fun name inside => (isName name inside).2.2.2] at member
  exact other (isName piece member)

section Scan

variable {w : Workspace} {policy : Policy} {start root : Path} {suffixes : List Text} {d : Discovery}

/-- What a scan finds is a file below its folder that nothing leaves out. -/
theorem exists_kept_of_mem_files (scanned : scan w policy start suffixes = .ok d) {p : Path}
    (listed : p ∈ d.files) :
    ∃ user f, p = ⟨d.root.root, d.root.parts ++ f⟩ ∧ f ∈ filesBelow w d.root [] ∧
      isKept w policy d.root user f = true := by
  obtain ⟨user, -, -, files⟩ := files_eq_plainFiles scanned
  rw [files] at listed
  have candidate := mem_of_mem_firstOf listed
  obtain ⟨f, met, rfl⟩ := List.mem_map.mp (List.mem_filter.mp candidate).1
  obtain ⟨below, kept⟩ := List.mem_filter.mp met
  exact ⟨user, f, rfl, below, kept⟩

theorem isOpen_outputFolder {user : Option Path} {out : Place} (shown : outputFolder policy ≠ [])
    (called : join ['/'] out = outputFolder policy) : isOpen w policy root user out = false := by
  have here : (join ['/'] out == outputFolder policy) = true := beq_iff_eq.mpr called
  simp [isOpen, shown, here]

/-- Nothing in the folder that the policy's text calls by its names is found. -/
theorem not_mem_files_outputFolder (scanned : scan w policy start suffixes = .ok d) {out : Place}
    (shown : outputFolder policy ≠ []) (called : join ['/'] out = outputFolder policy) (name : Text)
    (rest : Place) : ⟨d.root.root, d.root.parts ++ (out ++ name :: rest)⟩ ∉ d.files := by
  intro listed
  obtain ⟨user, f, same, -, kept⟩ := exists_kept_of_mem_files scanned listed
  rw [← List.append_cancel_left (Path.mk.inj same).2] at kept
  have filled : out ≠ [] := by
    rintro rfl
    exact shown called.symm
  have opened : isOpen w policy d.root user out = true := by
    rw [isKept, Bool.and_eq_true, Bool.and_eq_true] at kept
    exact List.all_eq_true.mp kept.1.1 out (mem_between_of_append filled name rest)
  rw [isOpen_outputFolder shown called] at opened
  cases opened

/-- Whether no folder below a root is called by the policy's text. -/
def NoOutput (w : Workspace) (policy : Policy) (root : Path) : Prop :=
  ∀ place ≠ [], w.files.entryAt? (root.parts ++ place) = some .folder →
    join ['/'] place ≠ outputFolder policy

/-- In a tree of names, a text with an empty piece or a step calls no folder. -/
theorem noOutput_of_piece (wellFormed : w.files.WellFormed) {piece : Text}
    (member : piece ∈ splitOn '/' (outputFolder policy)) (other : ¬ Path.IsName piece) :
    NoOutput w policy root := by
  intro place filled folder
  have isName := wellFormed.isName_of_entry folder
  exact join_ne_of_piece (fun name inside => isName name (List.mem_append_right _ inside)) filled member
    other

theorem isEntered_withoutOutput {rules : List IgnoreRule} {place : Place}
    (other : join ['/'] place ≠ outputFolder policy) :
    isEntered (withoutOutput policy) rules place = isEntered policy rules place := by
  have apart : (join ['/'] place == outputFolder policy) = false := beq_eq_false_iff_ne.mpr other
  have same : isLeftOut (withoutOutput policy) rules place true = isLeftOut policy rules place true := rfl
  simp [isEntered, outputFolder_withoutOutput, apart, same]

/-- A walk that comes to no folder called by the policy's text goes on as without the text. -/
theorem visit_withoutOutput (none : NoOutput w policy root) (depth : Nat) (place : Place)
    (outer : List IgnoreRule) :
    visit w (withoutOutput policy) root depth place outer = visit w policy root depth place outer := by
  induction depth generalizing place outer with
  | zero => rfl
  | succ depth ih =>
    have entered : ∀ rules, (foldersIn w root place).filter (isEntered (withoutOutput policy) rules) =
        (foldersIn w root place).filter (isEntered policy rules) := by
      intro rules
      apply List.filter_congr
      intro p member
      obtain ⟨listed, folder⟩ := List.mem_filter.mp member
      obtain ⟨name, -, rfl⟩ := List.mem_map.mp listed
      exact isEntered_withoutOutput (none _ (by simp) (beq_iff_eq.mp folder))
    have own : ownRules w (withoutOutput policy) root place = ownRules w policy root place := rfl
    rw [visit_succ, visit_succ, own, entered]
    refine congrArg _ (List.flatMap_congr fun p _ => ih p _)

/-- Where no folder is called by the policy's text, the scan is the one without the text. -/
theorem scan_withoutOutput (none : ∀ root, rootOf w start = .ok root → NoOutput w policy root) :
    scan w (withoutOutput policy) start suffixes = scan w policy start suffixes := by
  rw [scan_eq_rootOf, scan_eq_rootOf]
  refine bind_congr_ok fun root rooted => ?_
  have shared : sharedRules w (withoutOutput policy) root = sharedRules w policy root := rfl
  rw [shared]
  refine bind_congr_ok fun found _ => ?_
  simp only [visit_withoutOutput (none root rooted)]

/-- Where a policy's text spells names, it leads down by them from the root, and nothing inside that
folder is found. In general a scan passes over the folder that the text, its outer slashes aside, calls by
its names, whatever the text leads to: nothing inside is found, and where there is no such folder the scan
is the one without a text. -/
theorem scan_passes_output (scanned : scan w policy start suffixes = .ok d) :
    (∀ out ≠ [], Spells policy.outputDir out →
      d.root.append (Path.read policy.outputDir) = ⟨d.root.root, d.root.parts ++ out⟩ ∧
        ∀ name rest, ⟨d.root.root, d.root.parts ++ (out ++ name :: rest)⟩ ∉ d.files) ∧
    (outputFolder policy ≠ [] → ∀ out, join ['/'] out = outputFolder policy →
      ∀ name rest, ⟨d.root.root, d.root.parts ++ (out ++ name :: rest)⟩ ∉ d.files) ∧
    (NoOutput w policy d.root → scan w (withoutOutput policy) start suffixes = .ok d) := by
  refine ⟨fun out filled spells => ⟨?_, ?_⟩, fun shown out called => ?_, fun none => ?_⟩
  · rw [spells.read filled]
    rfl
  · have shown : outputFolder policy ≠ [] := by
      obtain ⟨first, rest, rfl⟩ := List.exists_cons_of_ne_nil filled
      rw [spells.outputFolder, join_cons]
      exact List.append_ne_nil_of_left_ne_nil (spells.1 first List.mem_cons_self).1.1 _
    exact not_mem_files_outputFolder scanned shown spells.outputFolder.symm
  · exact not_mem_files_outputFolder scanned shown called
  · obtain ⟨-, rooted, -⟩ := files_eq_plainFiles scanned
    rw [← scanned]
    refine scan_withoutOutput fun root same => ?_
    rw [rooted, Except.ok.injEq] at same
    rwa [← same]

end Scan

/-- A project with a test file. -/
def tested : Workspace :=
  { files := ⟨[([['p']], .folder), ([['p'], "tests".toList], .folder),
      ([['p'], "tests".toList, "a.rs".toList], .file [])]⟩
    current := [['p']]
    environment := [("HOME".toList, "/h".toList)] }

def testedRoot : Path := ⟨.slash, [['p']]⟩

def testedFile : Path := ⟨.slash, [['p'], "tests".toList, "a.rs".toList]⟩

def testedPolicy (outputDir : Text) : Policy := { Policy.default with outputDir }

/-- A slash at the end of the text makes no difference to a scan. With a step in front the text leads to
the same folder, and the scan finds what is there. -/
theorem tested_found :
    (∃ d, scan tested (testedPolicy "tests/".toList) testedRoot [".rs".toList] = .ok d ∧
      testedFile ∉ d.files) ∧
    tested.locate (testedRoot.append (Path.read "./tests".toList)) =
      .ok ⟨[['p'], "tests".toList], some .folder⟩ ∧
    ∃ d, scan tested (testedPolicy "./tests".toList) testedRoot [".rs".toList] = .ok d ∧
      testedFile ∈ d.files ∧
      scan tested (withoutOutput (testedPolicy "./tests".toList)) testedRoot [".rs".toList] = .ok d := by
  have wellFormed : tested.files.WellFormed :=
    ⟨by decide, by decide, by decide, by decide⟩
  refine ⟨?_, by decide +kernel, ?_⟩
  · have ends : (scan tested (testedPolicy "tests/".toList) testedRoot [".rs".toList]).toOption.any
        (fun d => d.root == testedRoot) = true := by decide +kernel
    obtain ⟨d, scanned, rooted⟩ := exists_ok_of_toOption ends
    refine ⟨d, scanned, ?_⟩
    have spelled : Spells (testedPolicy "tests/".toList).outputDir ["tests".toList] :=
      ⟨by decide, 1, by decide⟩
    have passed := ((scan_passes_output scanned).1 ["tests".toList] (by decide) spelled).2
      "a.rs".toList []
    rwa [beq_iff_eq.mp rooted] at passed
  · have ends : (scan tested (testedPolicy "./tests".toList) testedRoot [".rs".toList]).toOption.any
        (fun d => d.files.contains testedFile) = true := by decide +kernel
    obtain ⟨d, scanned, found⟩ := exists_ok_of_toOption ends
    have dot : ['.'] ∈ splitOn '/' (outputFolder (testedPolicy "./tests".toList)) := by decide
    have none : NoOutput tested (testedPolicy "./tests".toList) d.root :=
      noOutput_of_piece wellFormed dot (by decide)
    exact ⟨d, scanned, List.contains_iff_mem.mp found, (scan_passes_output scanned).2.2 none⟩

end Discovery

end TestSkeleton
