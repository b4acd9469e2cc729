import TestSkeleton.Proofs.Discovery.Scan
import TestSkeleton.Proofs.Ignore.Reach
import TestSkeleton.Proofs.Workspace.Linkless

/-! Which files the ignore rules leave: on every level of a file's path the last rule that matches
decides, and a negation takes back what earlier rules leave out. -/

namespace TestSkeleton

open Text

namespace Discovery

/-- The folders below the root on the way to a file, and the file. -/
def levels (f : Place) : List Place := f.inits.tail

/-- Whether a closed folder, the folder for test files or a skip pattern takes a file out. -/
def isBarred (policy : Policy) (f : Place) : Bool :=
  (between f).any (fun folder =>
    folder.getLast?.any closedFolders.contains ||
      (outputFolder policy ≠ [] && join ['/'] folder == outputFolder policy) ||
      matchesSkipPattern policy.skipPatterns (join ['/'] folder)) ||
    matchesSkipPattern policy.skipPatterns (join ['/'] f)

/-- Whether the last of the rules that match is a negation, if any rule matches. -/
def spares (matching : IgnoreRule → Bool) (rules : List IgnoreRule) : Bool :=
  (rules.filter matching).getLast?.all (·.negated)

/-- Whether rules, read in some way, spare every level of a file. -/
def isSpared (w : Workspace) (policy : Policy) (root : Path) (user : Option Path)
    (reading : IgnoreRule → Text → Bool → Bool) (f : Place) : Bool :=
  (levels f).all fun level =>
    spares (fun r => reading r (join ['/'] level) (level ≠ f))
      (rulesFor w policy root user level.dropLast)

theorem not_lastDecides (rules : List IgnoreRule) (path : Text) (isFolder : Bool) :
    (!lastDecides rules path isFolder) = spares (fun r => r.admits path isFolder) rules := by
  rw [lastDecides, spares]
  cases (rules.filter (·.admits path isFolder)).getLast? <;> simp

theorem levels_eq {f : Place} (filled : f ≠ []) : levels f = between f ++ [f] := by
  have parted := List.dropLast_concat_getLast filled
  rw [levels, between, ← parted, inits_append_singleton, List.dropLast_concat,
    List.tail_append_of_ne_nil (List.ne_nil_of_mem ((List.mem_inits _ _).mpr List.nil_prefix))]

theorem ne_of_mem_between {f folder : Place} (filled : f ≠ []) (around : folder ∈ between f) :
    folder ≠ f := by
  rintro rfl
  have short := ((List.mem_inits _ _).mp (List.mem_of_mem_tail around)).length_le
  rw [List.length_dropLast] at short
  have long := List.length_pos_iff.mpr filled
  omega

section Kept

variable {w : Workspace} {policy : Policy} {root : Path} {user : Option Path}

/-- A file that nothing else takes out is kept exactly when the rules spare it on every level. -/
theorem isKept_eq_isSpared {f : Place} (filled : f ≠ []) (free : isBarred policy f = false) :
    isKept w policy root user f = isSpared w policy root user IgnoreRule.admits f := by
  simp only [isBarred, Bool.or_eq_false_iff, List.any_eq_false, Bool.not_eq_true] at free
  obtain ⟨folders, file⟩ := free
  have opened : ∀ folder ∈ between f, isOpen w policy root user folder =
      spares (fun r => r.admits (join ['/'] folder) (folder ≠ f))
        (rulesFor w policy root user folder.dropLast) := by
    intro folder around
    obtain ⟨⟨closed, output⟩, skipped⟩ := folders folder around
    have isFolder : decide (folder ≠ f) = true := decide_eq_true (ne_of_mem_between filled around)
    simp only [isOpen, closed, output, skipped, isFolder, ← not_lastDecides, isIgnoredAt,
      Bool.not_false, Bool.true_and]
  have last : decide (f ≠ f) = false := by simp
  rw [isKept, file, isSpared, levels_eq filled, List.all_append, List.all_cons, List.all_nil,
    Bool.and_true, Bool.not_false, Bool.and_true, last, ← not_lastDecides, isIgnoredAt]
  congr 1
  rw [Bool.eq_iff_iff, List.all_eq_true, List.all_eq_true]
  exact forall₂_congr fun folder around => by rw [opened folder around]

theorem not_mem_join_level {f level : Place} (oneLine : ∀ name ∈ f, '\n' ∉ name)
    (member : level ∈ levels f) : '\n' ∉ join ['/'] level := by
  have front := (List.mem_inits _ _).mp (List.mem_of_mem_tail member)
  exact not_mem_join (by decide) fun name inside => oneLine name (front.subset inside)

/-- Where no rule in force overreaches, what rules admit is what they name. -/
theorem isSpared_congr {f : Place} (oneLine : ∀ name ∈ f, '\n' ∉ name)
    (within : ∀ level ∈ levels f, ∀ r ∈ rulesFor w policy root user level.dropLast,
      r.overreaches (join ['/'] level) = false) :
    isSpared w policy root user IgnoreRule.admits f =
      isSpared w policy root user IgnoreRule.names f := by
  rw [Bool.eq_iff_iff, isSpared, isSpared, List.all_eq_true, List.all_eq_true]
  refine forall₂_congr fun level member => ?_
  have same := List.filter_congr fun r inForce => IgnoreRule.admits_eq_names (level ≠ f)
    (not_mem_join_level oneLine member) (within level member r inForce)
  rw [spares, spares, same]

end Kept

/-- Files with different keys are all first. -/
theorem mem_firstOf {α κ : Type} [BEq κ] [LawfulBEq κ] {key : α → κ} {l : List α}
    (injective : ∀ a ∈ l, ∀ b ∈ l, key a = key b → a = b) {a : α} :
    a ∈ firstOf key l ↔ a ∈ l := by
  induction l with
  | nil => exact Iff.rfl
  | cons b l ih =>
    have later := ih fun c inside d also => injective c (List.mem_cons_of_mem _ inside) d
      (List.mem_cons_of_mem _ also)
    rw [firstOf, List.mem_cons, List.mem_cons, List.mem_filter, later]
    constructor
    · exact Or.imp_right And.left
    · rintro (here | inside)
      · exact .inl here
      · by_cases same : key a = key b
        · exact .inl (injective a (List.mem_cons_of_mem _ inside) b List.mem_cons_self same)
        · exact .inr ⟨inside, by simpa using same⟩

theorem isName_of_mem_filesBelow {w : Workspace} (named : w.files.Named) {root : Path} {place f : Place}
    (outer : ∀ name ∈ place, Path.IsName name) (member : f ∈ filesBelow w root place) :
    ∀ name ∈ f, Path.IsName name := by
  have entry : ∀ {place p : Place}, (∀ name ∈ place, Path.IsName name) → p ∈ entriesIn w root place →
      ∀ name ∈ p, Path.IsName name := by
    intro place p outer listed
    obtain ⟨name, inside, rfl⟩ := List.mem_map.mp listed
    intro n here
    rcases List.mem_append.mp here with above | last
    · exact outer n above
    · rw [List.mem_singleton.mp last]
      exact named _ (FileTree.mem_namesIn.mp inside) name (by simp)
  induction place using filesBelow.induct w root generalizing f with
  | case1 place ih =>
    rw [filesBelow_eq] at member
    rcases List.mem_append.mp member with own | deeper
    · exact entry outer (List.mem_filter.mp own).1
    · obtain ⟨p, folder, inside⟩ := List.mem_flatMap.mp deeper
      exact ih p folder (entry outer (List.mem_filter.mp folder).1) inside

/-- Without links, a file has one path below the root. -/
theorem truePath_inj {w : Workspace} (linkless : w.files.Linkless) {root : Path} {f g : Place}
    (first : ∀ name ∈ f, Path.IsName name) (second : ∀ name ∈ g, Path.IsName name)
    (same : truePath w ⟨root.root, root.parts ++ f⟩ = truePath w ⟨root.root, root.parts ++ g⟩) :
    f = g := by
  have shape : ∀ {place : Place}, (∀ name ∈ place, Path.IsName name) →
      truePath w ⟨root.root, root.parts ++ place⟩ =
        ⟨(truePath w root).root, (truePath w root).parts ++ place⟩ := by
    intro place valid
    have behind := Path.extend_append
      ⟨if root.isAbsolute then .slash else .relative, []⟩ root.parts place
    rw [Path.extend_names valid] at behind
    have absolute : (⟨root.root, root.parts ++ place⟩ : Path).isAbsolute = root.isAbsolute := rfl
    rw [truePath, truePath, Workspace.resolve_eq_ok linkless, Workspace.resolve_eq_ok linkless, absolute,
      behind]
    exact Workspace.absolute_append_names w _ _ valid
  rw [shape first, shape second] at same
  exact List.append_cancel_left (Path.mk.inj same).2

theorem scan_eq_ok {w : Workspace} {policy : Policy} {start root : Path} {user : Option Path}
    (suffixes : List Text) (rooted : rootOf w start = .ok root)
    (settings : userRules? w policy = .ok user) :
    ∃ d, scan w policy start suffixes = .ok d ∧ d.root = root ∧
      d.files = plainFiles w policy root user suffixes := by
  refine ⟨⟨root, sift w root suffixes [] ((outerRules w policy root user).2 ++
    visit w policy root (depthLimit w) [] (outerRules w policy root user).1)⟩, ?_, rfl, ?_⟩
  · rw [scan_eq_rootOf, rooted]
    simp only [sharedRules_eq, settings]
    rfl
  · rw [Discovery.files, files_sift, metFiles_walk, plainFiles]
    exact List.filter_eq_self.mpr fun p _ => rfl

/-- In a tree without links, a file that nothing else takes out is found exactly when on every level
of its path the last rule that admits the level is a negation or absent. Where no rule in force
overreaches, this holds of the last rule that names the level. -/
theorem mem_files_iff_isSpared {w : Workspace} {policy : Policy} {start root : Path}
    {user : Option Path} (suffixes : List Text) (linkless : w.files.Linkless)
    (named : w.files.Named) (rooted : rootOf w start = .ok root)
    (settings : userRules? w policy = .ok user) :
    ∃ d, scan w policy start suffixes = .ok d ∧ d.root = root ∧
      ∀ f ∈ filesBelow w root [],
        hasSuffix suffixes (⟨root.root, root.parts ++ f⟩ : Path).name → isBarred policy f = false →
        (⟨root.root, root.parts ++ f⟩ ∈ d.files ↔
          isSpared w policy root user IgnoreRule.admits f) ∧
        ((∀ name ∈ f, '\n' ∉ name) →
          (∀ level ∈ levels f, ∀ r ∈ rulesFor w policy root user level.dropLast,
            r.overreaches (join ['/'] level) = false) →
          (⟨root.root, root.parts ++ f⟩ ∈ d.files ↔
            isSpared w policy root user IgnoreRule.names f)) := by
  obtain ⟨d, scanned, sameRoot, files⟩ := scan_eq_ok suffixes rooted settings
  refine ⟨d, scanned, sameRoot, fun f member suffix free => ?_⟩
  have valid : ∀ g ∈ filesBelow w root [], ∀ name ∈ g, Path.IsName name :=
    fun g inside => isName_of_mem_filesBelow named (by simp) inside
  have injective : ∀ p ∈ candidates root suffixes
      ((filesBelow w root []).filter (isKept w policy root user)), ∀ q ∈ candidates root suffixes
      ((filesBelow w root []).filter (isKept w policy root user)),
      truePath w p = truePath w q → p = q := by
    intro p first q second same
    obtain ⟨g, inside, rfl⟩ := List.mem_map.mp (List.mem_filter.mp first).1
    obtain ⟨h, also, rfl⟩ := List.mem_map.mp (List.mem_filter.mp second).1
    rw [truePath_inj linkless (valid g (List.mem_filter.mp inside).1)
      (valid h (List.mem_filter.mp also).1) same]
  have found : ⟨root.root, root.parts ++ f⟩ ∈ d.files ↔ isKept w policy root user f = true := by
    rw [files, plainFiles, mem_firstOf injective, candidates, List.mem_filter, List.mem_map]
    constructor
    · rintro ⟨⟨g, inside, same⟩, -⟩
      rw [← List.append_cancel_left (Path.mk.inj same).2]
      exact (List.mem_filter.mp inside).2
    · exact fun kept => ⟨⟨f, List.mem_filter.mpr ⟨member, kept⟩, rfl⟩, suffix⟩
  obtain ⟨name, rest, shape⟩ := prefix_of_mem_filesBelow member
  have filled : f ≠ [] := by simp [shape]
  rw [isKept_eq_isSpared filled free] at found
  refine ⟨found, fun oneLine within => ?_⟩
  rw [← isSpared_congr oneLine within]
  exact found

/-- A project whose deeper ignore file takes back a folder that the outer one leaves out. -/
def vendored : Workspace :=
  { files := ⟨[([['p']], .folder),
      ([['p'], ".gitignore".toList], .file (Utf8.encode "vendor\n".toList)),
      ([['p'], "lib".toList], .folder),
      ([['p'], "lib".toList, ".gitignore".toList], .file (Utf8.encode "!vendor/\n".toList)),
      ([['p'], "lib".toList, "vendor".toList], .folder),
      ([['p'], "lib".toList, "vendor".toList, "a.rs".toList], .file [])]⟩
    current := [['p']]
    environment := [("HOME".toList, "/h".toList)] }

def vendoredRoot : Path := ⟨.slash, [['p']]⟩

def vendoredFile : Place := ["lib".toList, "vendor".toList, "a.rs".toList]

/-- The folder is taken back by name, but the rule that left it out also fits the file inside by the
name of the folder. -/
theorem vendored_not_found :
    (vendored.files.Linkless ∧ vendored.files.Named ∧
      rootOf vendored vendoredRoot = .ok vendoredRoot ∧
      userRules? vendored Policy.default = .ok none ∧
      vendoredFile ∈ filesBelow vendored vendoredRoot [] ∧
      isBarred Policy.default vendoredFile = false) ∧
    isSpared vendored Policy.default vendoredRoot none IgnoreRule.names vendoredFile ∧
    ∃ d, scan vendored Policy.default vendoredRoot [".rs".toList] = .ok d ∧
      ⟨.slash, ['p'] :: vendoredFile⟩ ∉ d.files := by
  have linkless : vendored.files.Linkless := FileTree.linkless_of_entries (by decide)
  have named : vendored.files.Named := by decide
  have rooted : rootOf vendored vendoredRoot = .ok vendoredRoot := by decide +kernel
  have settings : userRules? vendored Policy.default = .ok none := by decide +kernel
  have member : vendoredFile ∈ filesBelow vendored vendoredRoot [] :=
    mem_filesBelow_of_folder "lib".toList (by decide) (by decide) <|
      mem_filesBelow_of_folder "vendor".toList (by decide) (by decide) <|
        mem_filesBelow_of_file "a.rs".toList (by decide) (by decide +kernel)
  have free : isBarred Policy.default vendoredFile = false := by decide +kernel
  refine ⟨⟨linkless, named, rooted, settings, member, free⟩, by decide +kernel, ?_⟩
  obtain ⟨d, scanned, -, found⟩ :=
    mem_files_iff_isSpared [".rs".toList] linkless named rooted settings
  refine ⟨d, scanned, fun listed => ?_⟩
  have spared := (found vendoredFile member (by decide) free).1.mp listed
  revert spared
  decide +kernel

end Discovery

end TestSkeleton
