import TestSkeleton.Proofs.Discovery.Scan
import TestSkeleton.Proofs.Generation.ModuleFile
import TestSkeleton.Proofs.Workspace.Growth

/-! The walk through a project after test files were saved: it meets what it met before. -/

namespace TestSkeleton

open Text Workspace

namespace Discovery

theorem rulesAt_congr {w w' : Workspace} {p : Path} (base : Text) (same : w'.entry p = w.entry p) :
    rulesAt w' base p = rulesAt w base p := by
  rw [rulesAt, rulesAt, IgnoreSource.rulesOf, IgnoreSource.rulesOf, readText_congr same]

theorem rulesAt_of_notFound {w : Workspace} {p : Path} (base : Text)
    (missing : w.entry p = .error .notFound) : rulesAt w base p = ([], []) := by
  have unread : w.readText p = .error (.file ⟨.notFound, p.text, none⟩) := by
    simp only [readText, readBytes, missing]
    rfl
  rw [rulesAt, IgnoreSource.rulesOf, unread]
  rfl

theorem leadsToFolder_congr {w w' : Workspace} {p : Path} (same : w'.entry p = w.entry p) :
    leadsToFolder w' p = leadsToFolder w p := by
  rw [leadsToFolder, leadsToFolder, isFolder_congr same]

end Discovery

open Discovery

/-- The user's ignore file is found and read as before. -/
def OutputSaved.UserKept (w w' : Workspace) (policy : Policy) : Prop :=
  policy.respectGitignore = true → IgnoreSource.userFile? w' = IgnoreSource.userFile? w ∧
    ∀ p, IgnoreSource.userFile? w = .ok (some p) → w'.entry p = w.entry p

/-- The rules of a project are shared as before when their files are read as before. -/
theorem Discovery.sharedRules_congr {w w' : Workspace} {policy : Policy} {root : Path}
    (user : OutputSaved.UserKept w w' policy)
    (repository : policy.respectGitignore = true →
      rulesAt w' [] (root.child ".git/info/exclude".toList) =
        rulesAt w [] (root.child ".git/info/exclude".toList)) :
    sharedRules w' policy root = sharedRules w policy root := by
  have users : userRules? w' policy = userRules? w policy := by
    rw [userRules?, userRules?]
    split
    · rename_i respected
      exact (user respected).1
    · rfl
  rw [sharedRules_eq, sharedRules_eq, users]
  cases known : userRules? w policy with
  | error cause => rw [map_error, map_error]
  | ok file =>
    rw [map_ok, map_ok, outerRules, outerRules]
    split
    · rename_i respected
      rw [userRules?, if_pos respected] at known
      have same : ∀ p ∈ file.toList, rulesAt w' [] p = rulesAt w [] p := by
        intro p member
        rw [Option.mem_toList] at member
        exact rulesAt_congr _ ((user respected).2 p (member ▸ known))
      rw [List.map_append, List.map_append, List.map_congr_left same, List.map_singleton,
        List.map_singleton, repository respected]
    · rfl

/-- A project before and after test files were saved in the folder for them, where no folder that was
made stands in the place of an ignore file. -/
structure OutputSaved (w w' : Workspace) (policy : Policy) (root out : Place) (names : List Text) :
    Prop where
  grown : Change.Grown (root ++ out) names w w'
  linkless : w.files.Linkless
  wellFormed : w.files.WellFormed
  current : w.files.entryAt? w.current = some .folder
  rooted : w.files.entryAt? root = some .folder
  filled : out ≠ []
  isName : ∀ name ∈ out, Path.IsName name
  output : outputFolder policy = join ['/'] out
  ignore : policy.respectGitignore = true →
    (∀ front, ¬w.IsMadeFor (root ++ out) (root ++ (front ++ [".gitignore".toList]))) ∧
      ¬w.IsMadeFor (root ++ out) (root ++ [".git", "info", "exclude"].map String.toList)
  tests : ∀ name ∈ names, ModulePath.IsTestName name
  room : IsWithin (root ++ out ++ [".gitignore".toList])

namespace OutputSaved

variable {w w' : Workspace} {policy : Policy} {root out : Place} {names : List Text}
  (s : OutputSaved w w' policy root out names)

include s

theorem rootName : ∀ name ∈ root, Path.IsName name :=
  s.wellFormed.isName (by simp [s.rooted])

theorem isStep {p : Place} (valid : ∀ name ∈ p, Path.IsName name) :
    ∀ name ∈ root ++ p, FileTree.IsStep name := by
  intro name member
  rcases List.mem_append.mp member with above | below
  · exact ⟨(s.rootName name above).2.1, (s.rootName name above).2.2.1⟩
  · exact ⟨(valid name below).2.1, (valid name below).2.2.1⟩

omit s in
/-- Outside the folder for them there are no test files. -/
theorem other_of_ne {p : Place} (apart : p ≠ out) (name : Text) :
    ∀ n ∈ names, root ++ (p ++ [name]) ≠ root ++ out ++ [n] := by
  rintro n - same
  rw [List.append_assoc] at same
  exact apart (List.append_inj_left' (List.append_cancel_left same) rfl)

omit s in
/-- What has another name is no test file. -/
theorem other_of_name {name : Text} (other : ∀ n ∈ names, name ≠ n) (p : Place) :
    ∀ n ∈ names, root ++ (p ++ [name]) ≠ root ++ out ++ [n] := by
  intro n member same
  rw [← List.append_assoc] at same
  exact other n member (List.singleton_inj.mp (List.append_inj_right' same rfl))

/-- What stands outside the folder for test files, and on the way there stood before, is unchanged. -/
theorem unchanged {p : Place} {name : Text} (apart : p ≠ out)
    (outside : w.files.entryAt? (root ++ (p ++ [name])) = none → ¬p ++ [name] <+: out) :
    w'.files.entryAt? (root ++ (p ++ [name])) = w.files.entryAt? (root ++ (p ++ [name])) := by
  by_cases there : w.files.entryAt? (root ++ (p ++ [name])) = none
  · refine s.grown.apart _ (fun inside => outside there ?_) (other_of_ne apart name)
    exact (List.prefix_append_right_inj root).mp inside
  · exact s.grown.same there (other_of_ne apart name)

/-- What is in a folder that was there is found as before, if it did not change. -/
theorem entry_child {p : Place} {name : Text} (isName : Path.IsName name) (valid : ∀ n ∈ p, Path.IsName n)
    (folder : w.files.entryAt? (root ++ p) = some .folder)
    (kept : w'.files.entryAt? (root ++ (p ++ [name])) = w.files.entryAt? (root ++ (p ++ [name]))) :
    w'.entry ⟨.slash, root ++ (p ++ [name])⟩ = w.entry ⟨.slash, root ++ (p ++ [name])⟩ := by
  rw [← List.append_assoc] at kept ⊢
  refine s.grown.entry_child s.linkless s.wellFormed (fun n member => ?_) folder kept
  rcases List.mem_append.mp member with above | last
  · exact s.isStep valid n above
  · rw [List.mem_singleton.mp last]
    exact ⟨isName.2.1, isName.2.2.1⟩

theorem isName_inside {p : Place} (folder : w.files.entryAt? (root ++ p) = some .folder) :
    ∀ n ∈ p, Path.IsName n := fun n member =>
  s.wellFormed.isName (by simp [folder]) n (List.mem_append_right root member)

omit s in
theorem ignoreName : Path.IsName ".gitignore".toList := by decide

/-- The ignore file of a folder that was there is what it was. -/
theorem ignoreFile_eq (respected : policy.respectGitignore = true) {p : Place} (apart : p ≠ out)
    (folder : w.files.entryAt? (root ++ p) = some .folder) :
    w'.entry ((⟨.slash, root ++ p⟩ : Path).child ".gitignore".toList) =
      w.entry ((⟨.slash, root ++ p⟩ : Path).child ".gitignore".toList) := by
  rw [ignoreName.child]
  dsimp only
  rw [List.append_assoc]
  refine s.entry_child ignoreName (s.isName_inside folder) folder (s.unchanged apart fun absent inside => ?_)
  exact (s.ignore respected).1 p ⟨(List.prefix_append_right_inj root).mpr inside, absent⟩

theorem ownRules_eq {p : Place} (apart : p ≠ out)
    (folder : w.files.entryAt? (root ++ p) = some .folder) :
    ownRules w' policy ⟨.slash, root⟩ p = ownRules w policy ⟨.slash, root⟩ p := by
  rw [ownRules, ownRules]
  split
  · rename_i respected
    rw [rulesAt_congr _ (s.ignoreFile_eq respected apart folder)]
  · rfl

theorem ownWarnings_eq {p : Place} (apart : p ≠ out)
    (folder : w.files.entryAt? (root ++ p) = some .folder) :
    ownWarnings w' policy ⟨.slash, root⟩ p = ownWarnings w policy ⟨.slash, root⟩ p := by
  rw [ownWarnings, ownWarnings]
  split
  · rename_i respected
    rw [rulesAt_congr _ (s.ignoreFile_eq respected apart folder)]
  · rfl

/-- The folder for test files is not entered. -/
theorem isEntered_out (rules : List IgnoreRule) : isEntered policy rules out = false := by
  have shown : outputFolder policy ≠ [] := by
    rw [s.output]
    cases out with
    | nil => exact absurd rfl s.filled
    | cons first rest =>
      intro empty
      rw [join_cons] at empty
      exact (s.isName first List.mem_cons_self).1 (List.append_eq_nil_iff.mp empty).1
  have here : (join ['/'] out == outputFolder policy) = true := by rw [s.output, beq_self_eq_true]
  rw [isEntered, here, decide_eq_true shown]
  simp

/-- What is new outside the folder for test files stands on the way to it. -/
theorem inside_of_new {p q : Place} (apart : p ≠ out) (listed : q ∈ entriesIn w' ⟨.slash, root⟩ p)
    (absent : w.files.entryAt? (root ++ q) = none) : q <+: out := by
  obtain ⟨name, named, rfl⟩ := List.mem_map.mp listed
  refine (List.prefix_append_right_inj root).mp
    (s.grown.inside_of_new absent (fun gone => ?_) (other_of_ne apart name))
  rw [FileTree.entryAt?_eq_none_iff (by simp), ← List.append_assoc] at gone
  exact gone (FileTree.mem_namesIn.mp named)

theorem within {p : Place} (inside : p <+: out) : IsWithin (root ++ p) := by
  obtain ⟨rest, rfl⟩ := inside
  have room := s.room.outer
  rw [← List.append_assoc] at room
  exact room.around

theorem leadsToFolder_way {p : Place} (inside : p <+: out) :
    leadsToFolder w' ⟨.slash, root ++ p⟩ = true := by
  have folder : w'.isFolder ⟨.slash, root ++ p⟩ = .ok true := by
    refine (isFolder_place s.grown.linkless (s.isStep fun n member =>
      s.isName n (inside.subset member))).mpr ⟨s.within inside, fun front above => ?_⟩
    exact s.grown.folders front (above.trans ((List.prefix_append_right_inj root).mpr inside))
  rw [leadsToFolder, folder]

/-- In a new folder on the way to the test files there is no ignore file. -/
theorem ignoreFile_new (respected : policy.respectGitignore = true) {p : Place} (inside : p <+: out)
    (apart : p ≠ out) (new : w.files.entryAt? (root ++ p) = none) :
    w'.entry ((⟨.slash, root ++ p⟩ : Path).child ".gitignore".toList) = .error .notFound := by
  have missing : w'.files.entryAt? (root ++ (p ++ [".gitignore".toList])) = none := by
    rw [s.unchanged apart fun absent also =>
        (s.ignore respected).1 p ⟨(List.prefix_append_right_inj root).mpr also, absent⟩,
      ← List.append_assoc]
    exact s.wellFormed.inside _ (by simp) (by simp [new])
  have way : root ++ p <+: root ++ out := (List.prefix_append_right_inj root).mpr inside
  have room : IsWithin (root ++ p ++ [".gitignore".toList]) := by
    obtain ⟨rest, rfl⟩ := inside
    have deeper : IsWithin (root ++ p ++ rest ++ [".gitignore".toList]) := by simpa using s.room
    exact deeper.earlier (Nat.le_refl _)
  rw [ignoreName.child]
  dsimp only
  rw [← List.append_assoc] at missing
  refine entry_eq_notFound s.grown.linkless ?_ room ?_ missing
  · intro n member
    rcases List.mem_append.mp member with above | last
    · exact s.isStep (fun n also => s.isName n (inside.subset also)) n above
    · rw [List.mem_singleton.mp last]
      exact ⟨ignoreName.2.1, ignoreName.2.2.1⟩
  · intro front around
    rcases List.prefix_concat_iff.mp around with rfl | above
    · exact .inr missing
    · exact .inl (s.grown.folders front (above.trans way))

/-- A new folder on the way to the test files holds nothing to visit. -/
theorem visit_new (depth : Nat) {p : Place} (rules : List IgnoreRule) (inside : p <+: out)
    (apart : p ≠ out) (new : w.files.entryAt? (root ++ p) = none) :
    visit w' policy ⟨.slash, root⟩ depth p rules = [] := by
  induction depth generalizing p rules with
  | zero => rfl
  | succ depth ih =>
    have below : ∀ q ∈ entriesIn w' ⟨.slash, root⟩ p,
        q <+: out ∧ w.files.entryAt? (root ++ q) = none := by
      intro q listed
      have absent : w.files.entryAt? (root ++ q) = none := by
        obtain ⟨name, -, rfl⟩ := List.mem_map.mp listed
        rw [← List.append_assoc]
        exact s.wellFormed.inside _ (by simp) (by simp [new])
      exact ⟨s.inside_of_new apart listed absent, absent⟩
    have silent : ownWarnings w' policy ⟨.slash, root⟩ p = [] := by
      rw [ownWarnings]
      split
      · rename_i respected
        rw [rulesAt_of_notFound _ (s.ignoreFile_new respected inside apart new)]
      · rfl
    rw [visit_succ, silent, List.nil_append, List.append_eq_nil_iff, List.map_eq_nil_iff]
    constructor
    · rw [List.filter_eq_nil_iff]
      intro q listed
      simp [s.leadsToFolder_way (below q listed).1]
    · rw [List.flatMap_eq_nil_iff]
      intro q entered
      obtain ⟨folder, taken⟩ := List.mem_filter.mp entered
      obtain ⟨way, absent⟩ := below q (List.mem_filter.mp folder).1
      refine ih _ way ?_ absent
      rintro rfl
      rw [s.isEntered_out] at taken
      cases taken

/-- The entries of a folder that was there are the ones of today that were there. -/
theorem entriesIn_eq {p : Place} (apart : p ≠ out) :
    entriesIn w ⟨.slash, root⟩ p = (entriesIn w' ⟨.slash, root⟩ p).filter fun q =>
      (w.files.entryAt? (root ++ q)).isSome := by
  have named : ∀ t : FileTree, ∀ name, name ∈ t.namesIn (root ++ p) ↔
      (t.entryAt? (root ++ (p ++ [name]))).isSome := by
    intro t name
    rw [FileTree.mem_namesIn, Option.isSome_iff_ne_none, ne_eq,
      FileTree.entryAt?_eq_none_iff (by simp), Classical.not_not, List.append_assoc]
  have some : ∀ name, name ∈ w.files.namesIn (root ++ p) ↔ name ∈ w'.files.namesIn (root ++ p) ∧
      (w.files.entryAt? (root ++ (p ++ [name]))).isSome = true := by
    intro name
    rw [named, named]
    refine ⟨fun there => ⟨?_, there⟩, And.right⟩
    rw [s.grown.same (by simpa [Option.isSome_iff_ne_none] using there) (other_of_ne apart name)]
    exact there
  rw [entriesIn, entriesIn, FileTree.namesIn_eq_filter s.wellFormed s.grown.wellFormed some,
    List.filter_map]
  rfl

/-- An entry of a folder that was there is found as before. -/
theorem entry_of_mem {p q : Place} (apart : p ≠ out)
    (folder : w.files.entryAt? (root ++ p) = some .folder) (listed : q ∈ entriesIn w ⟨.slash, root⟩ p) :
    w'.files.entryAt? (root ++ q) = w.files.entryAt? (root ++ q) ∧
      w'.entry ⟨.slash, root ++ q⟩ = w.entry ⟨.slash, root ++ q⟩ := by
  obtain ⟨name, named, rfl⟩ := List.mem_map.mp listed
  have there : w.files.entryAt? (root ++ (p ++ [name])) ≠ none := by
    rw [ne_eq, FileTree.entryAt?_eq_none_iff (by simp), Classical.not_not, ← List.append_assoc]
    exact FileTree.mem_namesIn.mp named
  have kept := s.unchanged apart fun absent => absurd absent there
  refine ⟨kept, s.entry_child ?_ (s.isName_inside folder) folder kept⟩
  exact s.wellFormed.isName there name (by simp)

theorem mem_entriesIn_of_there {p q : Place} (apart : p ≠ out)
    (listed : q ∈ entriesIn w' ⟨.slash, root⟩ p) {entry : Entry}
    (there : w.files.entryAt? (root ++ q) = some entry) : q ∈ entriesIn w ⟨.slash, root⟩ p := by
  rw [s.entriesIn_eq apart]
  exact List.mem_filter.mpr ⟨listed, by simp [there]⟩

/-- The files of a folder that was there are the same. -/
theorem ownFiles_eq {p : Place} (apart : p ≠ out)
    (folder : w.files.entryAt? (root ++ p) = some .folder) (kept : Place → Bool) :
    ((entriesIn w' ⟨.slash, root⟩ p).filter fun q =>
        !leadsToFolder w' ⟨.slash, root ++ q⟩ && kept q) =
      (entriesIn w ⟨.slash, root⟩ p).filter fun q =>
        !leadsToFolder w ⟨.slash, root ++ q⟩ && kept q := by
  rw [s.entriesIn_eq apart, List.filter_filter]
  apply List.filter_congr
  intro q listed
  cases there : w.files.entryAt? (root ++ q) with
  | none => simp [s.leadsToFolder_way (s.inside_of_new apart listed there)]
  | some entry =>
    have same := (s.entry_of_mem apart folder (s.mem_entriesIn_of_there apart listed there)).2
    simp [leadsToFolder_congr same]

/-- The folders of a folder that was there are the ones of today that were there. -/
theorem foldersIn_eq {p : Place} (apart : p ≠ out)
    (folder : w.files.entryAt? (root ++ p) = some .folder) :
    foldersIn w ⟨.slash, root⟩ p = (foldersIn w' ⟨.slash, root⟩ p).filter fun q =>
      (w.files.entryAt? (root ++ q)).isSome := by
  rw [foldersIn, foldersIn, s.entriesIn_eq apart, List.filter_filter, List.filter_filter]
  apply List.filter_congr
  intro q listed
  cases there : w.files.entryAt? (root ++ q) with
  | none => simp
  | some entry =>
    have kept := (s.entry_of_mem apart folder (s.mem_entriesIn_of_there apart listed there)).1
    rw [there] at kept
    simp [kept]

/-- Outside the folder for test files the walk stays outside. -/
theorem not_inside_of_entered {p q : Place} {rules : List IgnoreRule} {v : Workspace}
    (outside : ¬out <+: p) (listed : q ∈ entriesIn v ⟨.slash, root⟩ p)
    (taken : isEntered policy rules q = true) : ¬out <+: q := by
  intro above
  obtain ⟨name, -, rfl⟩ := List.mem_map.mp listed
  rcases List.prefix_concat_iff.mp above with same | above
  · rw [← same, s.isEntered_out] at taken
    cases taken
  · exact outside above

/-- The walk meets what it met before. -/
theorem visit_eq {depth depth' : Nat} {p : Place} (rules : List IgnoreRule)
    (folder : w.files.entryAt? (root ++ p) = some .folder) (outside : ¬out <+: p)
    (deep : (w.files.below (root ++ p)).length < depth)
    (deep' : (w'.files.below (root ++ p)).length < depth') :
    visit w' policy ⟨.slash, root⟩ depth' p rules = visit w policy ⟨.slash, root⟩ depth p rules := by
  induction depth generalizing depth' p rules with
  | zero => exact absurd deep (Nat.not_lt_zero _)
  | succ depth ih =>
    cases depth' with
    | zero => exact absurd deep' (Nat.not_lt_zero _)
    | succ depth' =>
      have apart : p ≠ out := fun same => outside (same ▸ List.prefix_rfl)
      have folders := s.foldersIn_eq apart folder
      rw [visit_succ, visit_succ, s.ownRules_eq apart folder, s.ownWarnings_eq apart folder,
        s.ownFiles_eq apart folder]
      generalize rules ++ ownRules w policy ⟨.slash, root⟩ p = inForce
      -- a new folder that is entered has nothing to visit, so it can be left out of the list
      have empty : ∀ q ∈ (foldersIn w' ⟨.slash, root⟩ p).filter (isEntered policy inForce),
          (w.files.entryAt? (root ++ q)).isSome = false →
            visit w' policy ⟨.slash, root⟩ depth' q inForce = [] := by
        intro q entered absent
        obtain ⟨isFolder, taken⟩ := List.mem_filter.mp entered
        have listed := (List.mem_filter.mp isFolder).1
        rw [Option.isSome_eq_false_iff, Option.isNone_iff_eq_none] at absent
        exact s.visit_new depth' inForce (s.inside_of_new apart listed absent)
          (fun same => s.not_inside_of_entered outside listed taken (same ▸ List.prefix_rfl)) absent
      have entered : ((foldersIn w' ⟨.slash, root⟩ p).filter (isEntered policy inForce)).filter
          (fun q => (w.files.entryAt? (root ++ q)).isSome) =
            (foldersIn w ⟨.slash, root⟩ p).filter (isEntered policy inForce) := by
        rw [folders, List.filter_filter, List.filter_filter]
        exact List.filter_congr fun q _ => Bool.and_comm _ _
      rw [← flatMap_filter_of_nil empty, entered]
      congr 1
      apply List.flatMap_congr
      intro q opened
      obtain ⟨listed, taken⟩ := List.mem_filter.mp opened
      obtain ⟨inside, isFolder⟩ := List.mem_filter.mp listed
      have smaller := length_below_lt_of_mem_foldersIn listed
      rw [folders] at listed
      have smaller' := length_below_lt_of_mem_foldersIn (List.mem_filter.mp listed).1
      dsimp only at smaller smaller'
      exact ih inForce (beq_iff_eq.mp isFolder) (s.not_inside_of_entered outside inside taken)
        (by omega) (by omega)

omit s in
theorem mem_filterMap_place? {q : Place} {visits : List Visit} (member : .file q ∈ visits) :
    q ∈ visits.filterMap Visit.place? :=
  List.mem_filterMap.mpr ⟨_, member, rfl⟩

/-- The files that the walk meets are found as before. -/
theorem entry_of_visited {depth : Nat} {p : Place} (rules : List IgnoreRule)
    (folder : w.files.entryAt? (root ++ p) = some .folder) (outside : ¬out <+: p) {q : Place}
    (met : .file q ∈ visit w policy ⟨.slash, root⟩ depth p rules) :
    w'.entry ⟨.slash, root ++ q⟩ = w.entry ⟨.slash, root ++ q⟩ := by
  induction depth generalizing p rules with
  | zero => cases met
  | succ depth ih =>
    have apart : p ≠ out := fun same => outside (same ▸ List.prefix_rfl)
    rw [visit_succ] at met
    rcases List.mem_append.mp met with here | deeper
    · rcases List.mem_append.mp here with warned | own
      · have named := mem_filterMap_place? warned
        rw [filterMap_place?_ownWarnings] at named
        cases named
      · obtain ⟨q', kept, same⟩ := List.mem_map.mp own
        cases same
        exact (s.entry_of_mem apart folder (List.mem_filter.mp kept).1).2
    · obtain ⟨p', entered, inside⟩ := List.mem_flatMap.mp deeper
      obtain ⟨listed, taken⟩ := List.mem_filter.mp entered
      obtain ⟨here, isFolder⟩ := List.mem_filter.mp listed
      exact ih _ (beq_iff_eq.mp isFolder) (s.not_inside_of_entered outside here taken) inside

omit s in
theorem sift_congr {root : Path} (resolves : ∀ p, w'.resolve p = w.resolve p) {visits : List Visit}
    (found : ∀ q, .file q ∈ visits →
      w'.entry ⟨root.root, root.parts ++ q⟩ = w.entry ⟨root.root, root.parts ++ q⟩)
    (suffixes : List Text) (seen : List Path) :
    sift w' root suffixes seen visits = sift w root suffixes seen visits := by
  induction visits generalizing seen with
  | nil => rfl
  | cons visit visits ih =>
    have later := fun seen => ih (fun q member => found q (List.mem_cons_of_mem _ member)) seen
    cases visit with
    | warning d => simp only [sift, later]
    | file place =>
      have here := isFile_congr (found place List.mem_cons_self)
      simp only [sift, later, here, resolves]

omit s in
/-- The names on the way to the repository's own ignore file. -/
def excludeNames : List Text := [".git", "info", "exclude"].map String.toList

omit s in
theorem isName_excludeNames : ∀ name ∈ excludeNames, Path.IsName name := by decide

omit s in
theorem child_exclude (p : Path) :
    p.child ".git/info/exclude".toList = ⟨p.root, p.parts ++ excludeNames⟩ := by
  have read : Path.read ".git/info/exclude".toList = ⟨.relative, excludeNames⟩ := by decide
  rw [Path.child, read]
  rfl

/-- On the way to the repository's own ignore file there is no test file. -/
theorem other_exclude {front : Place} (filled : front ≠ []) (inside : front <+: excludeNames) :
    ∀ n ∈ names, root ++ front ≠ root ++ out ++ [n] := by
  have last : ∀ name ∈ excludeNames, name.getLast? ≠ some 's' ∧ name.getLast? ≠ some 'v' := by decide
  obtain ⟨p, name, rfl⟩ := (List.eq_nil_or_concat' front).resolve_left filled
  obtain ⟨rust, v⟩ := last name (inside.subset (by simp))
  exact other_of_name (fun n member => (s.tests n member).ne rust v) p

omit s in
theorem prefix_append_cases {front back place : Place} (inside : place <+: front ++ back) :
    place <+: front ∨ ∃ rest, rest ≠ [] ∧ rest <+: back ∧ place = front ++ rest := by
  rcases List.prefix_or_prefix_of_prefix inside (List.prefix_append front back) with above | ⟨rest, rfl⟩
  · exact .inl above
  · by_cases whole : rest = []
    · exact .inl (by rw [whole, List.append_nil])
    · exact .inr ⟨rest, whole, (List.prefix_append_right_inj front).mp inside, rfl⟩

/-- Where the way to the repository's own ignore file is new, there is no such file. -/
theorem exclude_new (respected : policy.respectGitignore = true) {front : Place}
    (inside : front <+: excludeNames) (way : front <+: out)
    (absent : w.files.entryAt? (root ++ front) = none) :
    w'.entry ⟨.slash, root ++ excludeNames⟩ = w.entry ⟨.slash, root ++ excludeNames⟩ := by
  have steps := s.isStep isName_excludeNames
  by_cases long : FileTree.pathLimit < (Utf8.encode (Path.text ⟨.slash, root ++ excludeNames⟩)).length
  · rw [Workspace.entry, Workspace.entry, locate_eq_reach s.linkless,
      locate_eq_reach s.grown.linkless, if_pos long, if_pos long]
  have within : IsWithin (root ++ excludeNames) := by
    have short : ∀ name ∈ excludeNames, (Utf8.encode name).length ≤ FileTree.nameLimit := by decide
    refine ⟨Nat.not_lt.mp long, fun name member => ?_⟩
    rcases List.mem_append.mp member with above | below
    · exact (s.within List.nil_prefix).2 name (by simpa using above)
    · exact short name below
  have below : ∀ place, front <+: place → w.files.entryAt? (root ++ place) = none := by
    rintro place ⟨rest, rfl⟩
    by_cases whole : rest = []
    · rw [whole, List.append_nil, absent]
    · rw [← List.append_assoc]
      exact s.wellFormed.inside rest whole (by simp [absent])
  have beside : ∀ place, place ≠ [] → place <+: excludeNames → ¬place <+: out →
      w'.files.entryAt? (root ++ place) = w.files.entryAt? (root ++ place) := by
    intro place more around outside
    exact s.grown.apart _ (fun also => outside ((List.prefix_append_right_inj root).mp also))
      (s.other_exclude more around)
  have folders : ∀ place, place <+: root →
      w'.files.entryAt? place = some .folder ∧ w.files.entryAt? place = some .folder := by
    intro place above
    have folder := s.grown.folders place (above.trans (List.prefix_append root out))
    rw [← s.grown.same_around s.wellFormed s.rooted above]
    exact ⟨folder, folder⟩
  rw [entry_eq_notFound s.grown.linkless steps within, entry_eq_notFound s.linkless steps within]
  · intro place around
    rcases prefix_append_cases around with above | ⟨rest, more, inner, rfl⟩
    · exact .inl (folders place above).2
    · rcases List.prefix_or_prefix_of_prefix inner inside with on | behind
      · exact s.grown.before _ ((List.prefix_append_right_inj root).mpr (on.trans way))
      · exact .inr (below rest behind)
  · exact below _ inside
  · intro place around
    rcases prefix_append_cases around with above | ⟨rest, more, inner, rfl⟩
    · exact .inl (folders place above).1
    · by_cases on : rest <+: out
      · exact .inl (s.grown.folders _ ((List.prefix_append_right_inj root).mpr on))
      · have behind := (List.prefix_or_prefix_of_prefix inner inside).resolve_left
          fun above => on (above.trans way)
        rw [beside rest more inner on]
        exact .inr (below rest behind)
  · have outside : ¬excludeNames <+: out := fun also =>
      (s.ignore respected).2 ⟨(List.prefix_append_right_inj root).mpr also, below _ inside⟩
    rw [beside _ (by decide) List.prefix_rfl outside, below _ inside]

/-- The repository's own ignore file is read as before. -/
theorem excludeRules_eq (respected : policy.respectGitignore = true) :
    rulesAt w' [] ((⟨.slash, root⟩ : Path).child ".git/info/exclude".toList) =
      rulesAt w [] ((⟨.slash, root⟩ : Path).child ".git/info/exclude".toList) := by
  apply rulesAt_congr
  rw [child_exclude]
  dsimp only
  by_cases new : ∃ front, front ≠ [] ∧ front <+: excludeNames ∧ front <+: out ∧
      w.files.entryAt? (root ++ front) = none
  · obtain ⟨front, -, inside, way, absent⟩ := new
    exact s.exclude_new respected inside way absent
  refine s.grown.entry_congr_of_steps s.linkless (s.isStep isName_excludeNames) fun place around => ?_
  rcases prefix_append_cases around with above | ⟨front, filled, inside, rfl⟩
  · exact s.grown.same_around s.wellFormed s.rooted above
  have other := s.other_exclude filled inside
  by_cases there : w.files.entryAt? (root ++ front) = none
  · refine s.grown.apart _ (fun way => ?_) other
    exact new ⟨front, filled, inside, (List.prefix_append_right_inj root).mp way, there⟩
  · exact s.grown.same there other

theorem entry_root : w'.entry ⟨.slash, root⟩ = w.entry ⟨.slash, root⟩ :=
  s.grown.entry_folder s.linkless s.wellFormed
    (fun n member => ⟨(s.rootName n member).2.1, (s.rootName n member).2.2.1⟩) s.rooted

theorem entry_root_folder : w.entry ⟨.slash, root⟩ = .ok .folder := by
  rw [entry_eq_ok_iff, ← isFolder_eq_true, isFolder_place s.linkless fun n member =>
    ⟨(s.rootName n member).2.1, (s.rootName n member).2.2.1⟩]
  refine ⟨by simpa using s.within List.nil_prefix, fun front above => ?_⟩
  rw [← s.grown.same_around s.wellFormed s.rooted above]
  exact s.grown.folders front (above.trans (List.prefix_append root out))

omit s in
theorem rootOf_place {v : Workspace} (linkless : v.files.Linkless) {place : Place}
    (valid : ∀ name ∈ place, Path.IsName name) (there : v.entry ⟨.slash, place⟩ = .ok .folder) :
    rootOf v ⟨.slash, place⟩ = .ok ⟨.slash, place⟩ := by
  have expand : v.expandHome ⟨.slash, place⟩ = .ok ⟨.slash, place⟩ := rfl
  have present : v.isPresent ⟨.slash, place⟩ = .ok true := by
    rw [isPresent, entryAt?, there]
    rfl
  have isFolder : v.isFolder ⟨.slash, place⟩ = .ok true := by
    rw [Workspace.isFolder, entryAt?, there]
    rfl
  rw [rootOf, expand, ok_bind, resolve_place linkless valid, ok_bind, present, isFolder]
  rfl

theorem sharedRules_kept (user : UserKept w w' policy) :
    sharedRules w' policy ⟨.slash, root⟩ = sharedRules w policy ⟨.slash, root⟩ :=
  sharedRules_congr user s.excludeRules_eq

theorem not_inside_root : ¬out <+: [] := fun inside => s.filled (List.prefix_nil.mp inside)

theorem rooted_append : w.files.entryAt? (root ++ []) = some .folder := by
  rw [List.append_nil, s.rooted]

/-- What the walk meets from the root down is found as before. -/
theorem entry_of_walk {rules : List IgnoreRule} {warnings : List Visit} {depth : Nat}
    (shared : sharedRules w policy ⟨.slash, root⟩ = .ok (rules, warnings)) {q : Place}
    (met : .file q ∈ warnings ++ visit w policy ⟨.slash, root⟩ depth [] rules) :
    w'.entry ⟨.slash, root ++ q⟩ = w.entry ⟨.slash, root ++ q⟩ := by
  rcases List.mem_append.mp met with warned | walked
  · rw [sharedRules_eq] at shared
    obtain ⟨file, -, outer⟩ := map_eq_ok.mp shared
    have silent := filterMap_place?_outerRules w policy ⟨.slash, root⟩ file
    have named := mem_filterMap_place? warned
    rw [outer] at silent
    rw [silent] at named
    cases named
  · exact s.entry_of_visited rules s.rooted_append s.not_inside_root walked

theorem rootOf_before : rootOf w ⟨.slash, root⟩ = .ok ⟨.slash, root⟩ :=
  rootOf_place s.linkless s.rootName s.entry_root_folder

/-- A scan from the root finds what it found before. -/
theorem scan_eq (user : UserKept w w' policy) (suffixes : List Text) :
    scan w' policy ⟨.slash, root⟩ suffixes = scan w policy ⟨.slash, root⟩ suffixes := by
  have deep : ∀ v : Workspace, (v.files.below (root ++ [])).length < depthLimit v :=
    fun v => Nat.lt_succ_of_le (FileTree.length_below_le _ _)
  have rootOf_after := rootOf_place s.grown.linkless s.rootName (s.entry_root.trans s.entry_root_folder)
  rw [scan_eq_rootOf, scan_eq_rootOf, s.rootOf_before, rootOf_after, ok_bind, ok_bind,
    s.sharedRules_kept user]
  refine bind_congr_ok fun (rules, warnings) shared => ?_
  have visits := s.visit_eq rules s.rooted_append s.not_inside_root (deep w) (deep w')
  dsimp only
  rw [visits, sift_congr (s.grown.resolve_eq s.linkless)]
  exact fun q met => s.entry_of_walk shared met

omit s in
theorem exists_visit_of_mem_sift {root : Path} {suffixes : List Text} {seen : List Path}
    {visits : List Visit} {p : Path} (member : .file p ∈ sift w root suffixes seen visits) :
    ∃ q, .file q ∈ visits ∧ p = ⟨root.root, root.parts ++ q⟩ := by
  have later : ∀ {visits : List Visit} {v : Visit},
      (∃ q, .file q ∈ visits ∧ p = ⟨root.root, root.parts ++ q⟩) →
        ∃ q, .file q ∈ v :: visits ∧ p = ⟨root.root, root.parts ++ q⟩ :=
    fun ⟨q, inside, same⟩ => ⟨q, List.mem_cons_of_mem _ inside, same⟩
  induction visits generalizing seen with
  | nil => cases member
  | cons visit visits ih =>
    cases visit with
    | warning d => exact later (ih ((List.mem_cons.mp member).resolve_left (by simp)))
    | file place =>
      rw [sift] at member
      dsimp only at member
      split at member
      · exact later (ih member)
      · split at member
        · exact later (ih ((List.mem_cons.mp member).resolve_left (by simp)))
        · exact later (ih member)
        · split at member
          · exact later (ih ((List.mem_cons.mp member).resolve_left (by simp)))
          · rcases List.mem_cons.mp member with here | behind
            · exact ⟨place, List.mem_cons_self, Finding.file.inj here⟩
            · exact later (ih behind)

/-- The files that a scan finds hold what they held. -/
theorem entry_of_found {suffixes : List Text} {d : Discovery}
    (found : scan w policy ⟨.slash, root⟩ suffixes = .ok d) :
    ∀ p ∈ d.files, w'.entry p = w.entry p := by
  rw [scan_eq_rootOf, s.rootOf_before, ok_bind] at found
  obtain ⟨⟨rules, warnings⟩, shared, whole⟩ := bind_eq_ok.mp found
  intro p member
  rw [← pure_eq_ok.mp whole] at member
  obtain ⟨finding, listed, isFile⟩ := List.mem_filterMap.mp member
  cases finding with
  | file q =>
    cases isFile
    obtain ⟨q, met, rfl⟩ := exists_visit_of_mem_sift listed
    exact s.entry_of_walk shared met
  | duplicate q => cases isFile
  | warning d => cases isFile

end OutputSaved

end TestSkeleton
